import LoraRan.Protocol.Types

namespace LoraRan.Protocol

-- The receive counters. The CAD back-offs belong to the radio driver and are left out.
structure Counters where
  rxFrames : UInt32 := 0
  txFrames : UInt32 := 0
  rxCrcErr : UInt32 := 0
  rxRunt : UInt32 := 0
  rxOversize : UInt32 := 0
  rxBadCrc : UInt32 := 0
  rxBadVer : UInt32 := 0
  rxNotAddressed : UInt32 := 0
  rxUnknownHdrExt : UInt32 := 0
  rxBadFrag : UInt32 := 0
  rxUnknownType : UInt32 := 0
  rxUnknownSchema : UInt32 := 0
  rxBadLength : UInt32 := 0
  rxNotFragmentable : UInt32 := 0
  rxRejectedCtx : UInt32 := 0
  rxRejectedMac : UInt32 := 0
  rxUnknownSrc : UInt32 := 0
  rxReassemblyTimeout : UInt32 := 0
  rxFragmentOverflow : UInt32 := 0
  rxReassemblyAbandoned : UInt32 := 0
  rxRejectedSeq : UInt32 := 0
  rxDupCommand : UInt32 := 0
  rxFragDuplicate : UInt32 := 0
  rxFragLate : UInt32 := 0

def Counters.bump (c : Counters) : Status → Counters
  | .ok => c
  | .runt => {c with rxRunt := c.rxRunt + 1}
  | .oversize => {c with rxOversize := c.rxOversize + 1}
  | .badCrc => {c with rxBadCrc := c.rxBadCrc + 1}
  | .badVersion => {c with rxBadVer := c.rxBadVer + 1}
  | .notAddressed => {c with rxNotAddressed := c.rxNotAddressed + 1}
  | .unknownHdrExt => {c with rxUnknownHdrExt := c.rxUnknownHdrExt + 1}
  | .badFrag => {c with rxBadFrag := c.rxBadFrag + 1}
  | .unknownType => {c with rxUnknownType := c.rxUnknownType + 1}
  | .unknownSchema => {c with rxUnknownSchema := c.rxUnknownSchema + 1}
  | .badLength => {c with rxBadLength := c.rxBadLength + 1}
  | .notFragmentable => {c with rxNotFragmentable := c.rxNotFragmentable + 1}
  | .reassemblyTimeout => {c with rxReassemblyTimeout := c.rxReassemblyTimeout + 1}
  | .reassemblyAbandoned => {c with rxReassemblyAbandoned := c.rxReassemblyAbandoned + 1}
  | .fragmentOverflow => {c with rxFragmentOverflow := c.rxFragmentOverflow + 1}
  | .fragLate => {c with rxFragLate := c.rxFragLate + 1}
  | .rejectedMac => {c with rxRejectedMac := c.rxRejectedMac + 1}
  | .rejectedCtx => {c with rxRejectedCtx := c.rxRejectedCtx + 1}
  | .unknownSrc => {c with rxUnknownSrc := c.rxUnknownSrc + 1}
  | .rejectedSeq => {c with rxRejectedSeq := c.rxRejectedSeq + 1}
  | .duplicateCached => {c with rxDupCommand := c.rxDupCommand + 1}
  | .duplicateInFlight => {c with rxDupCommand := c.rxDupCommand + 1}
  | .bufferTooSmall => c
  | .missingMac => c
  | .notImplemented => c

-- The counters by name, so that one statement can speak of all of them.
inductive Counter where
  | rxFrames | txFrames | rxCrcErr | rxRunt | rxOversize | rxBadCrc | rxBadVer | rxNotAddressed | rxUnknownHdrExt
  | rxBadFrag | rxUnknownType | rxUnknownSchema | rxBadLength | rxNotFragmentable | rxRejectedCtx | rxRejectedMac
  | rxUnknownSrc | rxReassemblyTimeout | rxFragmentOverflow | rxReassemblyAbandoned | rxRejectedSeq | rxDupCommand
  | rxFragDuplicate | rxFragLate
  deriving DecidableEq

def Counters.read (c : Counters) : Counter → UInt32
  | .rxFrames => c.rxFrames
  | .txFrames => c.txFrames
  | .rxCrcErr => c.rxCrcErr
  | .rxRunt => c.rxRunt
  | .rxOversize => c.rxOversize
  | .rxBadCrc => c.rxBadCrc
  | .rxBadVer => c.rxBadVer
  | .rxNotAddressed => c.rxNotAddressed
  | .rxUnknownHdrExt => c.rxUnknownHdrExt
  | .rxBadFrag => c.rxBadFrag
  | .rxUnknownType => c.rxUnknownType
  | .rxUnknownSchema => c.rxUnknownSchema
  | .rxBadLength => c.rxBadLength
  | .rxNotFragmentable => c.rxNotFragmentable
  | .rxRejectedCtx => c.rxRejectedCtx
  | .rxRejectedMac => c.rxRejectedMac
  | .rxUnknownSrc => c.rxUnknownSrc
  | .rxReassemblyTimeout => c.rxReassemblyTimeout
  | .rxFragmentOverflow => c.rxFragmentOverflow
  | .rxReassemblyAbandoned => c.rxReassemblyAbandoned
  | .rxRejectedSeq => c.rxRejectedSeq
  | .rxDupCommand => c.rxDupCommand
  | .rxFragDuplicate => c.rxFragDuplicate
  | .rxFragLate => c.rxFragLate

def counterOf : Status → Option Counter
  | .runt => some .rxRunt
  | .oversize => some .rxOversize
  | .badCrc => some .rxBadCrc
  | .badVersion => some .rxBadVer
  | .notAddressed => some .rxNotAddressed
  | .unknownHdrExt => some .rxUnknownHdrExt
  | .badFrag => some .rxBadFrag
  | .unknownType => some .rxUnknownType
  | .unknownSchema => some .rxUnknownSchema
  | .badLength => some .rxBadLength
  | .notFragmentable => some .rxNotFragmentable
  | .reassemblyTimeout => some .rxReassemblyTimeout
  | .reassemblyAbandoned => some .rxReassemblyAbandoned
  | .fragmentOverflow => some .rxFragmentOverflow
  | .fragLate => some .rxFragLate
  | .rejectedMac => some .rxRejectedMac
  | .rejectedCtx => some .rxRejectedCtx
  | .unknownSrc => some .rxUnknownSrc
  | .rejectedSeq => some .rxRejectedSeq
  | .duplicateCached => some .rxDupCommand
  | .duplicateInFlight => some .rxDupCommand
  | .ok | .bufferTooSmall | .missingMac | .notImplemented => none

@[simp] theorem bump_read (c : Counters) (s : Status) (k : Counter) :
    (c.bump s).read k = if counterOf s = some k then c.read k + 1 else c.read k := by
  cases s <;> cases k <;> rfl

end LoraRan.Protocol
