import LoraRan.GateLink.AlarmWatch

namespace LoraRan.GateLink
open Protocol Node

def inSafety : UInt8 := 0x04
def inExit : UInt8 := 0x08
def sensors : UInt8 := inSafety ||| inExit

structure DetectParams where
  windowMs : UInt32 := 60000
  idleMs : UInt32 := 10000
  alertRepeatS : UInt32 := 0

inductive DetectPhase where
  | idle | armed | settling
  deriving DecidableEq, Repr

-- `first` is the sensor that started an armed detection and `crossed` whether the one being settled saw both.
structure Detector where
  primed : Bool := false
  prev : UInt8 := 0
  phase : DetectPhase := .idle
  first : UInt8 := 0
  crossed : Bool := false
  startMs : UInt32 := 0
  quiet : Bool := true
  quietSinceMs : UInt32 := 0
  eventId : UInt32 := 0
  eventType : EventType := .vehicleDetected
  alerted : Bool := false
  suppressed : Bool := false
  alertEver : Bool := false
  lastAlertMs : UInt32 := 0
  lastDirection : Direction := .none
  traversalSeen : Bool := false
  traversalMs : UInt32 := 0
  deriving DecidableEq

-- The counter's last id and the pushes so far travel beside the detector.
structure Detecting where
  d : Detector
  ids : UInt32
  out : List Push

-- Either a detection's first event or a held-open alert raised by a later edge of it; it takes a new id.
def Detecting.firstEvent (s : Detecting) (nowMs : UInt32) (g : GateContext) (p : DetectParams) (dir : Direction) : Detecting :=
  let d := s.d
  let limited := g.held && p.alertRepeatS != 0 && d.alertEver && decide (nowMs - d.lastAlertMs < p.alertRepeatS * 1000)
  let alert := g.held && !limited
  let d := {d with suppressed := d.suppressed || limited}
  let d := if alert then {d with alerted := true,alertEver := true,lastAlertMs := nowMs} else d
  let d := {d with eventType := if alert then .vehicleWhileHeldOpen else .vehicleDetected,eventId := s.ids + 1}
  ⟨d,s.ids + 1,addPush s.out (.event {g.event d.eventType d.eventId with direction := dir})⟩

def Detecting.resolve (s : Detecting) (dir : Direction) (traversal : Bool) (nowMs : UInt32) (g : GateContext) : Detecting :=
  let d := {s.d with lastDirection := dir,crossed := traversal}
  let d := if traversal then {d with traversalSeen := true,traversalMs := nowMs} else d
  let out := addPush s.out (.event {g.event d.eventType d.eventId with followUp := true,direction := dir})
  ⟨{d with phase := if d.quiet then .idle else .settling},s.ids,addPush out (.status .vehicleDetected)⟩

-- A sensor already asserted at the first read is not an edge.
def Detector.rise (d : Detector) (inputs : UInt8) : UInt8 := if d.primed then (inputs &&& sensors) &&& ~~~d.prev else 0

-- What a read leaves of the levels, before the phase looks at it.
def Detector.read (d : Detector) (inputs : UInt8) (nowMs : UInt32) : Detector :=
  let bits := inputs &&& sensors
  let d := {d with prev := bits,primed := true}
  if bits ≠ 0 then {d with quiet := false}
  else if !d.quiet then {d with quiet := true,quietSinceMs := nowMs}
  else d

def Detecting.idle (s : Detecting) (rise : UInt8) (nowMs : UInt32) (g : GateContext) (p : DetectParams) : Detecting :=
  if rise = 0 then s
  else
    let s := {s with d := {s.d with alerted := false,suppressed := false,startMs := nowMs}}
    let s := s.firstEvent nowMs g p .undetermined
    if rise = sensors then s.resolve .undetermined true nowMs g else {s with d := {s.d with first := rise,phase := .armed}}

-- The window or the quiet time has run out.
def Detector.expired (d : Detector) (nowMs : UInt32) (p : DetectParams) : Bool :=
  decide (p.windowMs ≤ nowMs - d.startMs) || (d.quiet && decide (p.idleMs ≤ nowMs - d.quietSinceMs))

def Detecting.armed (s : Detecting) (rise : UInt8) (late : Bool) (nowMs : UInt32) (g : GateContext) (p : DetectParams) : Detecting :=
  if rise &&& ~~~s.d.first ≠ 0 then s.resolve (if s.d.first = inExit then .exit else .entry) true nowMs g
  else
    let s := if late then s.firstEvent nowMs g p .undetermined else s
    if s.d.expired nowMs p then s.resolve .undetermined false nowMs g else s

-- After a traversal the sensors must stay clear for the quiet time; a partial one has waited it out already.
def Detecting.settling (s : Detecting) (late : Bool) (nowMs : UInt32) (g : GateContext) (p : DetectParams) : Detecting :=
  let s := if late then s.firstEvent nowMs g p s.d.lastDirection else s
  if s.d.quiet && (!s.d.crossed || decide (p.idleMs ≤ nowMs - s.d.quietSinceMs)) then {s with d := {s.d with phase := .idle}} else s

def Detector.update (d : Detector) (inputs : UInt8) (nowMs : UInt32) (g : GateContext) (p : DetectParams) (ids : UInt32) (out : List Push) :
    Detecting :=
  let rise := d.rise inputs
  let s : Detecting := ⟨d.read inputs nowMs,ids,out⟩
  -- Any rising edge while held alerts, once per detection.
  let late := rise != 0 && g.held && !d.alerted && !d.suppressed
  match d.phase with
  | .idle => s.idle rise nowMs g p
  | .armed => s.armed rise late nowMs g p
  | .settling => s.settling late nowMs g p

def Detector.lastTraversalAgeS (d : Detector) (nowMs : UInt32) : UInt32 :=
  if d.traversalSeen then (nowMs - d.traversalMs) / 1000 else 0xFFFFFFFF

-- A traversal is a detection that sees both sensors: at once, or the other one after the first.
def Detector.crosses (d : Detector) (inputs : UInt8) : Bool :=
  match d.phase with
  | .idle => d.rise inputs == sensors
  | .armed => d.rise inputs &&& ~~~d.first != 0
  | .settling => false

-- The part of the detector an age is taken from.
def Detector.traversal (d : Detector) : Bool × UInt32 := (d.traversalSeen,d.traversalMs)

theorem firstEvent_traversal (s : Detecting) (nowMs : UInt32) (g : GateContext) (p : DetectParams) (dir : Direction) :
    (s.firstEvent nowMs g p dir).d.traversal = s.d.traversal := by
  simp only [Detecting.firstEvent,Detector.traversal]
  split
  · rfl
  · rfl

theorem resolve_traversal (s : Detecting) (dir : Direction) (traversal : Bool) (nowMs : UInt32) (g : GateContext) :
    (s.resolve dir traversal nowMs g).d.traversal = if traversal then (true,nowMs) else s.d.traversal := by
  cases traversal with
  | true => rfl
  | false => rfl

theorem read_traversal (d : Detector) (inputs : UInt8) (nowMs : UInt32) : (d.read inputs nowMs).traversal = d.traversal := by
  simp only [Detector.read,Detector.traversal]
  split
  · rfl
  · split
    · rfl
    · rfl

theorem read_first (d : Detector) (inputs : UInt8) (nowMs : UInt32) : (d.read inputs nowMs).first = d.first := by
  simp only [Detector.read]
  split
  · rfl
  · split
    · rfl
    · rfl

theorem late_traversal (s : Detecting) (late : Bool) (nowMs : UInt32) (g : GateContext) (p : DetectParams) (dir : Direction) :
    (if late then s.firstEvent nowMs g p dir else s).d.traversal = s.d.traversal := by
  cases late with
  | true => exact firstEvent_traversal s nowMs g p dir
  | false => rfl

theorem idle_traversal (s : Detecting) (rise : UInt8) (nowMs : UInt32) (g : GateContext) (p : DetectParams) :
    (s.idle rise nowMs g p).d.traversal = if rise = sensors then (true,nowMs) else s.d.traversal := by
  unfold Detecting.idle
  split
  · rename_i still
    rw [still,if_neg (by decide)]
  · dsimp only
    split
    · rw [resolve_traversal,if_pos rfl]
    · exact firstEvent_traversal _ nowMs g p .undetermined

theorem armed_traversal (s : Detecting) (rise : UInt8) (late : Bool) (nowMs : UInt32) (g : GateContext) (p : DetectParams) :
    (s.armed rise late nowMs g p).d.traversal = if rise &&& ~~~s.d.first ≠ 0 then (true,nowMs) else s.d.traversal := by
  have kept := late_traversal s late nowMs g p .undetermined
  unfold Detecting.armed
  split
  · rw [resolve_traversal,if_pos rfl]
  · dsimp only
    generalize (if late then s.firstEvent nowMs g p .undetermined else s) = noted at kept ⊢
    split
    · rw [resolve_traversal,if_neg (by decide)]
      exact kept
    · exact kept

theorem settling_traversal (s : Detecting) (late : Bool) (nowMs : UInt32) (g : GateContext) (p : DetectParams) :
    (s.settling late nowMs g p).d.traversal = s.d.traversal := by
  have kept := late_traversal s late nowMs g p s.d.lastDirection
  unfold Detecting.settling
  dsimp only
  generalize (if late then s.firstEvent nowMs g p s.d.lastDirection else s) = noted at kept ⊢
  split
  · exact kept
  · exact kept

-- The traversal's time moves exactly when one is seen.
theorem update_traversal (d : Detector) (inputs : UInt8) (nowMs : UInt32) (g : GateContext) (p : DetectParams) (ids : UInt32) (out : List Push) :
    (d.update inputs nowMs g p ids out).d.traversal = if d.crosses inputs then (true,nowMs) else d.traversal := by
  cases phase : d.phase with
  | idle =>
      simp only [Detector.update,Detector.crosses,phase,idle_traversal,read_traversal,beq_iff_eq]
  | armed =>
      simp only [Detector.update,Detector.crosses,phase,armed_traversal,read_first,read_traversal,bne_iff_ne]
  | settling =>
      simp only [Detector.update,Detector.crosses,phase,settling_traversal,read_traversal]
      rfl

end LoraRan.GateLink
