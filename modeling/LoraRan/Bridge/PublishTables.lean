import LoraRan.Bridge.JsonWriter
import LoraRan.Bridge.Registry
import LoraRan.Protocol.Schemas

namespace LoraRan.Bridge.Publish
open Protocol Protocol.Sentinels Library.DecimalText

def text (s : String) : Bytes := s.toUTF8.toList

-- The bits of the status fields the documents read.
def kInOpen : UInt8 := 0x01
def kInMoving : UInt8 := 0x02
def kInSafety : UInt8 := 0x04
def kInExit : UInt8 := 0x08
def kInFire : UInt8 := 0x10
def kInAlarm : UInt8 := 0x20

def kHoldHeldOpen : UInt8 := 0x01

def kDetSafety : UInt8 := 0x01
def kDetExit : UInt8 := 0x02
def kDetClassifying : UInt8 := 0x04
def kDetVehicleHeld : UInt8 := 0x08
def kDetSuppressed : UInt8 := 0x10

def kMpptLoadOn : UInt8 := 0x01
def kMpptStale : UInt8 := 0x02
def kMpptHexPending : UInt8 := 0x04
def kMpptChargeInhibited : UInt8 := 0x08

def kBmsValid : UInt8 := 0x01
def kBmsChargeFet : UInt8 := 0x02
def kBmsDischargeFet : UInt8 := 0x04
def kBmsChargeInhibited : UInt8 := 0x08
def kBmsProtection : UInt8 := 0x10
def kBmsBalancing : UInt8 := 0x20

def kNodeConfigPersisted : UInt8 := 0x01
def kNodeSdOk : UInt8 := 0x02
def kNodeDryRun : UInt8 := 0x04
def kNodeBmsBle : UInt8 := 0x08
def kNodeDebug : UInt8 := 0x10
def kNodeShutdownLatch : UInt8 := 0x20
def kNodeTraversalVolatile : UInt8 := 0x40
def kNodeFireUnsensed : UInt8 := 0x80

def kHealthFlagDebugActive : UInt8 := 0x01
def kEventFlagFollowUp : UInt8 := 0x01

def kMpptCodeNotAvailable : UInt8 := 0xFF

def bit (flags mask : UInt8) : Bool := decide (flags &&& mask ≠ 0)

-- The names of the codes on the wire, and nothing for a code no table lists.
def gateStateName : UInt8 → Option Bytes
  | 0x00 => some (text "unknown")
  | 0x01 => some (text "closed")
  | 0x02 => some (text "moving")
  | 0x03 => some (text "open_countdown")
  | 0x04 => some (text "open_held")
  | 0x08 => some (text "fault")
  | _ => none

def holdSourceName : UInt8 → Option Bytes
  | 0x00 => some (text "none")
  | 0x01 => some (text "lran")
  | 0x02 => some (text "manual")
  | 0x03 => some (text "keypad_fire")
  | 0x04 => some (text "unknown")
  | _ => none

def movementCauseName : UInt8 → Option Bytes
  | 0x00 => some (text "unknown")
  | 0x01 => some (text "exit_wand")
  | 0x02 => some (text "lran_command")
  | 0x03 => some (text "keypad_fire")
  | 0x04 => some (text "manual_hold")
  | 0x05 => some (text "external_momentary")
  | _ => none

def directionName : UInt8 → Option Bytes
  | 0x00 => some (text "none")
  | 0x01 => some (text "entry")
  | 0x02 => some (text "exit")
  | 0x03 => some (text "undetermined")
  | _ => none

def statusReasonName : UInt8 → Option Bytes
  | 0x00 => some (text "poll_response")
  | 0x01 => some (text "gate_state_change")
  | 0x02 => some (text "hold_state_change")
  | 0x03 => some (text "mppt_error")
  | 0x04 => some (text "vehicle_detected")
  | 0x05 => some (text "bms_alarm")
  | 0x06 => some (text "hard_shutdown")
  | 0x07 => some (text "fire")
  | 0x08 => some (text "config_change")
  | 0x09 => some (text "boot")
  | 0x0A => some (text "charge_inhibited")
  | 0xFF => some (text "debug_synthetic")
  | _ => none

def mpptChargeStateName : UInt8 → Option Bytes
  | 0 => some (text "off")
  | 2 => some (text "fault")
  | 3 => some (text "bulk")
  | 4 => some (text "absorption")
  | 5 => some (text "float")
  | 7 => some (text "equalize")
  | 245 => some (text "starting")
  | 247 => some (text "auto_equalize")
  | 252 => some (text "external_control")
  | _ => none

def mpptErrorName : UInt8 → Option Bytes
  | 0 => some (text "no_error")
  | 2 => some (text "battery_voltage_high")
  | 17 => some (text "charger_temperature_high")
  | 18 => some (text "charger_over_current")
  | 19 => some (text "charger_current_reversed")
  | 20 => some (text "bulk_time_limit")
  | 21 => some (text "current_sensor")
  | 26 => some (text "terminals_overheated")
  | 33 => some (text "input_voltage_high")
  | 34 => some (text "input_current_high")
  | 38 => some (text "input_shutdown_battery_voltage")
  | 39 => some (text "input_shutdown_current_while_off")
  | 65 => some (text "lost_communication")
  | 67 => some (text "sync_charging_config")
  | 68 => some (text "bms_connection_lost")
  | 116 => some (text "calibration_data_lost")
  | 117 => some (text "invalid_firmware")
  | 119 => some (text "user_settings_invalid")
  | _ => none

-- The high byte of the detail is reserved and ignored.
def resetCauseName (detail : UInt16) : Bytes :=
  match (detail &&& 0xFF).toNat with
  | 0x01 => text "power_on"
  | 0x02 => text "reboot_command"
  | 0x03 => text "software"
  | 0x04 => text "watchdog"
  | 0x05 => text "panic"
  | 0x06 => text "brownout"
  | 0x07 => text "external"
  | _ => text "unknown"

def inhibitPathName (detail : UInt16) : Option Bytes :=
  match detail.toNat with
  | 0 => some (text "not_stated")
  | 1 => some (text "bms")
  | 2 => some (text "vedirect")
  | _ => none

def socSourceName (bmsFlags : UInt8) : Bytes :=
  match (bmsFlags >>> 6).toNat with
  | 0 => text "bms_ble"
  | 1 => text "smartshunt"
  | 2 => text "voltage_coarse"
  | _ => text "unknown"

def eventTypeBoot : UInt8 := 0x0A
def eventTypeChargeInhibited : UInt8 := 0x09

-- Each is also its event's topic leaf.
def eventTypeName : UInt8 → Option Bytes
  | 0x01 => some (text "vehicle_while_held_open")
  | 0x02 => some (text "fire_asserted")
  | 0x03 => some (text "hard_shutdown")
  | 0x04 => some (text "vehicle_detected")
  | 0x05 => some (text "gate_state_change")
  | 0x06 => some (text "hold_state_change")
  | 0x07 => some (text "bms_alarm")
  | 0x08 => some (text "mppt_error")
  | 0x09 => some (text "charge_inhibited")
  | 0x0A => some (text "boot")
  | 0x0B => some (text "phy_reverted")
  | _ => none

-- What the gate's last stable position was, for the direction of one that moves.
inductive StableGate where
  | none | closed | open_
  deriving DecidableEq, Repr

def coverState (gateState : UInt8) (last : StableGate) : Option Bytes × StableGate :=
  match gateState with
  | 0x01 => (some (text "closed"),.closed)
  | 0x03 | 0x04 => (some (text "open"),.open_)
  | 0x02 =>
      match last with
      | .closed => (some (text "opening"),last)
      | .open_ => (some (text "closing"),last)
      | .none => (some (text "open"),last)
  | _ => (none,.none)

-- The writers that put null for a value that is none.
def strOrNull (key : Bytes) (v : Option Bytes) : JsonCall :=
  match v with
  | none => .null key
  | some v => .str key (some v)

def i16OrNull (key : Bytes) (v : Int16) : JsonCall := if v = i16NotAvailable then .null key else .i32 key v.toInt32

def codeOrNull (key : Bytes) (v : UInt8) : JsonCall := if v = kMpptCodeNotAvailable then .null key else .u32 key v.toUInt32

def tenthsOrNull (key : Bytes) (v : Int16) : JsonCall := if v = i16NotAvailable then .null key else .decimal key v.toInt 1

def fnv1a (s : Bytes) : UInt32 := s.foldl (fun h b => (h ^^^ b.toUInt32) * 16777619) 2166136261

inductive Domain where
  | gate | detect | solar | battery | node | health
  deriving DecidableEq, Repr

def domainPath : Domain → Bytes
  | .gate => text "gate"
  | .detect => text "detect"
  | .solar => text "solar"
  | .battery => text "battery"
  | .node => text "node"
  | .health => text "node/health"

def kMaxTopicLen : Nat := 96
def kMaxPayloadLen : Nat := 1024

def nodeTopicName : NodeId → Option Bytes
  | 0x01 => some (text "gatelink")
  | 0x02 => some (text "welllink")
  | 0xF0 => some (text "simnode0")
  | 0xF1 => some (text "simnode1")
  | 0xF2 => some (text "simnode2")
  | 0xF3 => some (text "simnode3")
  | _ => none

-- A topic that the buffer does not hold is none, never a shortened one.
def fitted (cap : Nat) (topic : Bytes) : Option Bytes := if topic.length < cap then some topic else none

def topicDomainState (node domain : Bytes) (cap : Nat) : Option Bytes :=
  if node = [] ∨ domain = [] then none else fitted cap (text "lran/" ++ node ++ text "/" ++ domain ++ text "/state")

def topicEvent (node name : Bytes) (cap : Nat) : Option Bytes :=
  if node = [] ∨ name = [] then none else fitted cap (text "lran/" ++ node ++ text "/event/" ++ name)

end LoraRan.Bridge.Publish
