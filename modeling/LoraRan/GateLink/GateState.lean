import LoraRan.GateLink.Detect

namespace LoraRan.GateLink

def inOpen : UInt8 := 0x01
def inMoving : UInt8 := 0x02

inductive MovementCause where
  | unknown | exitWand | lranCommand | keypadFire | manualHold | externalMomentary
  deriving DecidableEq, Repr

-- K1 to K4, as io_task numbers them.
def relayOpenLock : UInt8 := 0
def relayUnlock : UInt8 := 1
def relayOpen : UInt8 := 2

structure GateParams where
  holdConfirmMs : UInt32 := 2000
  causeWindowMs : UInt32 := 10000

structure GateTracker where
  primed : Bool := false
  prevInputs : UInt8 := 0
  state : GateState := .unknown
  observed : GateState := .unknown
  holdCandidate : Bool := false
  holdSinceMs : UInt32 := 0
  held : Bool := false
  source : HoldSource := .none
  -- The derived state the gate left for a hold. Unknown means the hold was there at boot.
  beforeHold : GateState := .unknown
  cause : MovementCause := .unknown
  causePending : Bool := false
  exitSeen : Bool := false
  exitMs : UInt32 := 0
  fireSeen : Bool := false
  fireMs : UInt32 := 0
  openPulseSeen : Bool := false
  openPulseMs : UInt32 := 0
  -- A K1 pulse claims the next hold.
  lranClaim : Bool := false
  lranClaimMoved : Bool := false
  lranClaimMs : UInt32 := 0
  fireClaim : Bool := false
  deriving DecidableEq

-- The two bits update() reports.
structure GateChanged where
  state : Bool := false
  hold : Bool := false
  deriving DecidableEq

namespace GateTracker

-- The state the inputs show, and FAULT while the hard-shutdown latch is asserted.
def observe (inputs : UInt8) : GateState :=
  if inputs &&& inAlarm ≠ 0 then .fault
  else if inputs &&& inOpen ≠ 0 then (if inputs &&& inMoving ≠ 0 then .openCountdown else .openHeld)
  else if inputs &&& inMoving ≠ 0 then .moving
  else .closed

def notePulse (t : GateTracker) (relay : UInt8) (nowMs : UInt32) : GateTracker :=
  let t := if relay = relayOpenLock ∨ relay = relayOpen then {t with openPulseSeen := true,openPulseMs := nowMs} else t
  if relay = relayOpenLock then {t with lranClaim := true,lranClaimMoved := false,lranClaimMs := nowMs}
  else if relay = relayUnlock then {t with lranClaim := false}
  else t

def within (now then_ window : UInt32) : Bool := decide (now - then_ ≤ window)

def beginOpening (t : GateTracker) (now : UInt32) (p : GateParams) : GateTracker :=
  let t := {t with causePending := false}
  if t.exitSeen && within now t.exitMs p.causeWindowMs then {t with cause := .exitWand}
  else if t.openPulseSeen && within now t.openPulseMs p.causeWindowMs then {t with cause := .lranCommand}
  else if t.fireSeen && within now t.fireMs p.causeWindowMs then {t with cause := .keypadFire}
  else {t with cause := .unknown,causePending := true}

-- The edges a read shows, by the inputs of the one before.
def edges (t : GateTracker) (inputs : UInt8) (nowMs : UInt32) : GateTracker :=
  let rising := if t.primed then inputs &&& ~~~t.prevInputs else 0
  let t := {t with prevInputs := inputs,primed := true}
  let t := if rising &&& inExit ≠ 0 then {t with exitSeen := true,exitMs := nowMs} else t
  if rising &&& inFire ≠ 0 then {t with fireSeen := true,fireMs := nowMs,fireClaim := true} else t

-- The claim a pulse made lapses when nothing moves in its window.
def claim (t : GateTracker) (seen : GateState) (nowMs : UInt32) (p : GateParams) : GateTracker :=
  let t := if seen ≠ t.observed then {t with observed := seen,lranClaimMoved := t.lranClaimMoved || t.lranClaim} else t
  if t.lranClaim && !t.lranClaimMoved && !within nowMs t.lranClaimMs p.causeWindowMs then {t with lranClaim := false} else t

-- 1/0 is not a hold until it has held for the confirmation; until then the state stays what it was.
def confirm (t : GateTracker) (seen : GateState) (nowMs : UInt32) (p : GateParams) : GateTracker × GateState :=
  if seen = .openHeld then
    let t := if t.holdCandidate then t else {t with holdCandidate := true,holdSinceMs := nowMs}
    (t,if nowMs - t.holdSinceMs < p.holdConfirmMs then t.state else seen)
  else ({t with holdCandidate := false},seen)

-- The derived state moves.
def move (t : GateTracker) (next : GateState) (nowMs : UInt32) (p : GateParams) : GateTracker :=
  let prev := t.state
  let t := {t with state := next}
  let t := if prev = .closed then t.beginOpening nowMs p else t
  let t := if next = .openHeld then {t with beforeHold := prev} else t
  let t := if t.causePending ∧ (next = .openHeld ∨ next = .openCountdown) then
      {t with causePending := false,cause := if next = .openHeld then .manualHold else .externalMomentary}
    else t
  if next = .closed then {t with causePending := false,lranClaim := false,fireClaim := false} else t

-- Who a hold that has just begun is put down to.
def attributed (t : GateTracker) : HoldSource :=
  if t.beforeHold = .unknown then .unknown
  else if t.lranClaim then .lran
  else if t.fireClaim then .keypadFire
  else .manual

def settleHold (t : GateTracker) : GateTracker :=
  let held := t.state == .openHeld
  if held = t.held then t else {t with held := held,source := if held then t.attributed else .none,lranClaim := false}

def update (t : GateTracker) (inputs : UInt8) (nowMs : UInt32) (p : GateParams) : GateTracker × GateChanged :=
  let seen := observe inputs
  let (t,next) := ((t.edges inputs nowMs).claim seen nowMs p).confirm seen nowMs p
  let moved := if next = t.state then t else t.move next nowMs p
  let settled := moved.settleHold
  (settled,{state := next ≠ t.state,hold := settled.held != moved.held})

end GateTracker

end LoraRan.GateLink
