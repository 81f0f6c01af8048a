import LoraRan.Node.Engine

namespace LoraRan.GateLink
open Protocol Node

inductive HoldSource where
  | none | lran | manual | keypadFire | unknown
  deriving DecidableEq, Repr

inductive GateState where
  | unknown | closed | moving | openCountdown | openHeld | fault
  deriving DecidableEq, Repr

inductive Direction where
  | none | entry | exit | undetermined
  deriving DecidableEq, Repr

-- The gate as the tracker reports it, which each event copies.
structure GateContext where
  held : Bool := false
  holdSource : HoldSource := .none
  gateState : GateState := .unknown
  inputBits : UInt8 := 0
  uptimeS : UInt32 := 0

-- `followUp` is bit 0 of event_flags, the only one in use.
structure GateLinkEvent where
  eventType : EventType
  followUp : Bool := false
  holdSource : HoldSource
  direction : Direction := .none
  gateState : GateState
  inputBits : UInt8
  detail : UInt16 := 0
  eventId : UInt32
  uptimeS : UInt32
  deriving DecidableEq

def GateContext.event (g : GateContext) (type : EventType) (id : UInt32) : GateLinkEvent :=
  {eventType := type,holdSource := g.holdSource,gateState := g.gateState,inputBits := g.inputBits,eventId := id,uptimeS := g.uptimeS}

inductive Push where
  | status (reason : StatusReason)
  | event (event : GateLinkEvent)
  deriving DecidableEq

def pushListCap : Nat := 4

def addPush (out : List Push) (p : Push) : List Push := if out.length = pushListCap then out else out ++ [p]

-- The two alarm inputs, IN5 and IN6.
inductive Alarm where
  | fire | hardShutdown
  deriving DecidableEq, Repr

def inFire : UInt8 := 0x10
def inAlarm : UInt8 := 0x20

def Alarm.bit : Alarm → UInt8
  | .fire => inFire
  | .hardShutdown => inAlarm

def Alarm.reason : Alarm → StatusReason
  | .fire => .fire
  | .hardShutdown => .hardShutdown

def Alarm.event : Alarm → EventType
  | .fire => .fireAsserted
  | .hardShutdown => .hardShutdown

-- FIRE first: when both rise in one pass, the highest-priority alert queues first.
def alarms : List Alarm := [.fire,.hardShutdown]

def asserted (inputs : UInt8) (a : Alarm) : Bool := inputs &&& a.bit != 0

structure AlarmWatch where
  seen : Bool := false
  last : UInt8 := 0

-- One alarm of a pass that changed: a STATUS on either edge, an EVENT on the rising one. `ids` is the last id drawn.
def noteAlarm (g : GateContext) (now changed : UInt8) (ids : UInt32) (out : List Push) (a : Alarm) : UInt32 × List Push :=
  if !asserted changed a then (ids,out)
  else
    let out := addPush out (.status a.reason)
    if asserted now a then (ids + 1,addPush out (.event (g.event a.event (ids + 1))))
    else (ids,out)

-- The first read is a baseline, not an edge.
def AlarmWatch.update (w : AlarmWatch) (inputs : UInt8) (g : GateContext) (ids : UInt32) (out : List Push) :
    Bool × AlarmWatch × UInt32 × List Push :=
  let now := inputs &&& (inFire ||| inAlarm)
  if !w.seen then (false,⟨true,now⟩,ids,out)
  else
    let changed := now ^^^ w.last
    let w := {w with last := now}
    if changed = 0 then (false,w,ids,out)
    else
      let (ids,out) := alarms.foldl (fun acc a => noteAlarm g now changed acc.1 acc.2 a) (ids,out)
      (true,w,ids,out)

-- What a pass asks to be sent about one alarm.
def raises (out : List Push) (a : Alarm) : Bool := out.any fun p => match p with
  | .event e => e.eventType == a.event
  | .status _ => false

theorem asserted_masked (inputs : UInt8) (a : Alarm) : asserted (inputs &&& (inFire ||| inAlarm)) a = asserted inputs a := by
  cases a with
  | fire => simp only [asserted,Alarm.bit,UInt8.and_assoc]; rfl
  | hardShutdown => simp only [asserted,Alarm.bit,UInt8.and_assoc]; rfl

def Alarm.place : Alarm → Nat
  | .fire => 4
  | .hardShutdown => 5

theorem asserted_testBit (inputs : UInt8) (a : Alarm) : asserted inputs a = inputs.toNat.testBit a.place := by
  have all : ∀ n : Fin 256, ∀ a ∈ alarms, asserted (UInt8.ofNat n.val) a = n.val.testBit a.place := by decide +kernel
  have here := all ⟨inputs.toNat,inputs.toNat_lt⟩ a (by cases a <;> decide)
  rwa [UInt8.ofNat_toNat] at here

theorem asserted_xor (now last : UInt8) (a : Alarm) : asserted (now ^^^ last) a = (asserted now a != asserted last a) := by
  simp only [asserted_testBit,UInt8.toNat_xor,Nat.testBit_xor]

theorem asserted_zero (a : Alarm) : asserted 0 a = false := by
  cases a with
  | fire => decide
  | hardShutdown => decide

-- Two alarms ask for two pushes each at most, so an empty list holds them all.
theorem noted_raises (g : GateContext) (now changed : UInt8) (ids : UInt32) (a : Alarm) :
    raises (alarms.foldl (fun acc a => noteAlarm g now changed acc.1 acc.2 a) (ids,[])).2 a = (asserted changed a && asserted now a) := by
  cases fireChanged : asserted changed .fire <;> cases fireNow : asserted now .fire <;>
    cases shutdownChanged : asserted changed .hardShutdown <;> cases shutdownNow : asserted now .hardShutdown <;> cases a <;>
    simp [alarms,noteAlarm,addPush,pushListCap,raises,Alarm.event,GateContext.event,fireChanged,fireNow,shutdownChanged,shutdownNow]

theorem update_raises (w : AlarmWatch) (inputs : UInt8) (g : GateContext) (ids : UInt32) (a : Alarm) :
    raises (w.update inputs g ids []).2.2.2 a = (w.seen && asserted inputs a && !asserted w.last a) := by
  unfold AlarmWatch.update
  dsimp only
  cases w.seen with
  | false => rfl
  | true =>
      have changed := asserted_xor (inputs &&& (inFire ||| inAlarm)) w.last a
      rw [asserted_masked] at changed
      rw [if_neg (by decide)]
      split
      · rename_i same
        rw [same,asserted_zero] at changed
        cases now : asserted inputs a with
        | false => rfl
        | true =>
            rw [now] at changed
            cases last : asserted w.last a with
            | false => rw [last] at changed; cases changed
            | true => rfl
      · dsimp only
        rw [noted_raises,changed,asserted_masked]
        cases asserted inputs a <;> cases asserted w.last a <;> rfl

theorem update_watch (w : AlarmWatch) (inputs : UInt8) (g : GateContext) (ids : UInt32) (out : List Push) :
    (w.update inputs g ids out).2.1 = ⟨true,inputs &&& (inFire ||| inAlarm)⟩ := by
  unfold AlarmWatch.update
  dsimp only
  split
  · rfl
  · rename_i seen
    have seen : w.seen = true := by simpa using seen
    split
    · rw [seen]
    · rw [seen]

end LoraRan.GateLink
