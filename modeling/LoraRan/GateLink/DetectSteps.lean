import LoraRan.GateLink.Detect

namespace LoraRan.GateLink
open Protocol Node

-- A list of pushes takes what it is asked for in order, and refuses what finds it full.

def refuses : List Push → List Push → Bool
  | _, [] => false
  | out, p :: rest => out.length == pushListCap || refuses (addPush out p) rest

theorem asked_whole (out asks : List Push) (room : out.length + asks.length ≤ pushListCap) :
    refuses out asks = false ∧ asks.foldl addPush out = out ++ asks := by
  induction asks generalizing out with
  | nil => exact ⟨rfl,(List.append_nil out).symm⟩
  | cons p rest ih =>
      rw [List.length_cons] at room
      have free : ¬out.length = pushListCap := by omega
      have added : addPush out p = out ++ [p] := if_neg free
      obtain ⟨kept,whole⟩ := ih (out ++ [p]) (by rw [List.length_append,List.length_singleton]; omega)
      unfold refuses
      rw [List.foldl_cons,added,kept,whole,List.append_assoc]
      exact ⟨by simp [free],rfl⟩

namespace Detector

-- The rate limit on alerts.
def limited (d : Detector) (nowMs : UInt32) (g : GateContext) (p : DetectParams) : Bool :=
  g.held && p.alertRepeatS != 0 && d.alertEver && decide (nowMs - d.lastAlertMs < p.alertRepeatS * 1000)

-- What an event that is no follow-up leaves of the detector, and the event.
def note (d : Detector) (ids nowMs : UInt32) (g : GateContext) (p : DetectParams) : Detector :=
  (Detecting.firstEvent ⟨d,ids,[]⟩ nowMs g p .undetermined).d

def firstPush (d : Detector) (g : GateContext) (dir : Direction) : Push := .event {g.event d.eventType d.eventId with direction := dir}

-- What resolving leaves of it, and what it sends.
def settle (d : Detector) (dir : Direction) (traversal : Bool) (nowMs : UInt32) : Detector :=
  (Detecting.resolve ⟨d,0,[]⟩ dir traversal nowMs {}).d

def followPush (d : Detector) (g : GateContext) (dir : Direction) : Push :=
  .event {g.event d.eventType d.eventId with followUp := true,direction := dir}

def resolvePushes (d : Detector) (g : GateContext) (dir : Direction) : List Push := [d.followPush g dir,.status .vehicleDetected]

-- A new detection, before its first event.
def begin (d : Detector) (nowMs : UInt32) : Detector := {d with alerted := false,suppressed := false,startMs := nowMs}

-- The other sensor rises while the first one's edge waits for it.
def otherRises (d : Detector) (inputs : UInt8) : Bool := d.rise inputs &&& ~~~d.first != 0

def lateAlert (d : Detector) (inputs : UInt8) (g : GateContext) : Bool := d.rise inputs != 0 && g.held && !d.alerted && !d.suppressed

-- The one after a late alert, if there is one.
def late (d : Detector) (inputs : UInt8) (nowMs : UInt32) (g : GateContext) (p : DetectParams) (ids : UInt32) : Detector :=
  if d.lateAlert inputs g then (d.read inputs nowMs).note ids nowMs g p else d.read inputs nowMs

def latePushes (d : Detector) (inputs : UInt8) (nowMs : UInt32) (g : GateContext) (p : DetectParams) (ids : UInt32) (dir : Direction) : List Push :=
  if d.lateAlert inputs g then [(d.late inputs nowMs g p ids).firstPush g dir] else []

-- Settled, and clear for long enough.
def cleared (d : Detector) (nowMs : UInt32) (p : DetectParams) : Bool :=
  d.quiet && (!d.crossed || decide (p.idleMs ≤ nowMs - d.quietSinceMs))

-- What an update leaves of the detector, whether it draws an id, and the pushes it asks for in order.

def next (d : Detector) (inputs : UInt8) (nowMs : UInt32) (g : GateContext) (p : DetectParams) (ids : UInt32) : Detector :=
  match d.phase with
  | .idle =>
      if d.rise inputs = 0 then d.read inputs nowMs
      else
        let begun := ((d.read inputs nowMs).begin nowMs).note ids nowMs g p
        if d.rise inputs = sensors then begun.settle .undetermined true nowMs else {begun with first := d.rise inputs,phase := .armed}
  | .armed =>
      if d.otherRises inputs then (d.read inputs nowMs).settle (if d.first = inExit then .exit else .entry) true nowMs
      else
        let noted := d.late inputs nowMs g p ids
        if noted.expired nowMs p then noted.settle .undetermined false nowMs else noted
  | .settling =>
      let noted := d.late inputs nowMs g p ids
      if noted.cleared nowMs p then {noted with phase := .idle} else noted

def draws (d : Detector) (inputs : UInt8) (g : GateContext) : Bool :=
  match d.phase with
  | .idle => d.rise inputs != 0
  | .armed => !d.otherRises inputs && d.lateAlert inputs g
  | .settling => d.lateAlert inputs g

def asks (d : Detector) (inputs : UInt8) (nowMs : UInt32) (g : GateContext) (p : DetectParams) (ids : UInt32) : List Push :=
  match d.phase with
  | .idle =>
      if d.rise inputs = 0 then []
      else
        let begun := ((d.read inputs nowMs).begin nowMs).note ids nowMs g p
        begun.firstPush g .undetermined :: if d.rise inputs = sensors then begun.resolvePushes g .undetermined else []
  | .armed =>
      if d.otherRises inputs then (d.read inputs nowMs).resolvePushes g (if d.first = inExit then .exit else .entry)
      else
        d.latePushes inputs nowMs g p ids .undetermined ++
          if (d.late inputs nowMs g p ids).expired nowMs p then (d.late inputs nowMs g p ids).resolvePushes g .undetermined else []
  | .settling => d.latePushes inputs nowMs g p ids d.lastDirection

end Detector

section
variable (d : Detector) (inputs : UInt8) (nowMs : UInt32) (g : GateContext) (p : DetectParams) (ids : UInt32) (out : List Push)

theorem read_lastDirection : (d.read inputs nowMs).lastDirection = d.lastDirection := by
  simp only [Detector.read]
  split
  · rfl
  · split
    · rfl
    · rfl

-- The late alert of a phase that looks for one.
theorem late_eq (dir : Direction) :
    (if d.lateAlert inputs g then (⟨d.read inputs nowMs,ids,out⟩ : Detecting).firstEvent nowMs g p dir else ⟨d.read inputs nowMs,ids,out⟩) =
      ⟨d.late inputs nowMs g p ids,if d.lateAlert inputs g then ids + 1 else ids,(d.latePushes inputs nowMs g p ids dir).foldl addPush out⟩ := by
  unfold Detector.latePushes Detector.late
  cases d.lateAlert inputs g with
  | true => rfl
  | false => rfl

-- An update adds what it asks for to any list.
theorem update_eq : d.update inputs nowMs g p ids out =
    ⟨d.next inputs nowMs g p ids,if d.draws inputs g then ids + 1 else ids,(d.asks inputs nowMs g p ids).foldl addPush out⟩ := by
  cases phase : d.phase with
  | idle =>
      unfold Detector.update Detector.asks Detector.next Detector.draws
      rw [phase]
      dsimp only [Detecting.idle]
      by_cases still : d.rise inputs = 0
      · have none_ : (d.rise inputs != 0) = false := by rw [still]; rfl
        rw [if_pos still,if_pos still,if_pos still,none_]
        rfl
      · have draws : (d.rise inputs != 0) = true := bne_iff_ne.mpr still
        rw [if_neg still,if_neg still,if_neg still,draws]
        by_cases both : d.rise inputs = sensors
        · rw [if_pos both,if_pos both,if_pos both]
          rfl
        · rw [if_neg both,if_neg both,if_neg both]
          rfl
  | armed =>
      unfold Detector.update Detector.asks Detector.next Detector.draws
      rw [phase]
      have first := read_first d inputs nowMs
      dsimp only [Detecting.armed]
      rw [first]
      by_cases other : d.otherRises inputs = true
      · have edge : d.rise inputs &&& ~~~d.first ≠ 0 := bne_iff_ne.mp other
        rw [if_pos edge,if_pos other,if_pos other,other]
        rfl
      · have none_ : ¬d.rise inputs &&& ~~~d.first ≠ 0 := fun edge => other (bne_iff_ne.mpr edge)
        rw [if_neg none_,if_neg other,if_neg other]
        have after := late_eq d inputs nowMs g p ids out .undetermined
        unfold Detector.lateAlert at after
        rw [after,List.foldl_append]
        simp only [other,Bool.not_false,Bool.true_and]
        split
        · rfl
        · rfl
  | settling =>
      unfold Detector.update Detector.asks Detector.next Detector.draws
      rw [phase]
      have direction := read_lastDirection d inputs nowMs
      dsimp only [Detecting.settling]
      rw [direction]
      have after := late_eq d inputs nowMs g p ids out d.lastDirection
      unfold Detector.lateAlert at after
      rw [after]
      by_cases cleared : (d.late inputs nowMs g p ids).cleared nowMs p = true
      · rw [if_pos cleared]
        exact if_pos cleared
      · rw [if_neg cleared]
        exact if_neg cleared

theorem latePushes_short (dir : Direction) : (d.latePushes inputs nowMs g p ids dir).length ≤ 1 := by
  unfold Detector.latePushes
  split
  · exact Nat.le_refl 1
  · exact Nat.zero_le 1

theorem asks_short : (d.asks inputs nowMs g p ids).length ≤ 3 := by
  have late := latePushes_short d inputs nowMs g p ids
  unfold Detector.asks
  cases d.phase with
  | idle =>
      dsimp only
      split
      · exact Nat.zero_le 3
      · split
        · exact Nat.le_refl 3
        · exact Nat.le_add_left 1 2
  | armed =>
      dsimp only
      split
      · exact Nat.le_add_left 2 1
      · rw [List.length_append]
        have one := late .undetermined
        split
        · change _ + 2 ≤ 3
          omega
        · change _ + 0 ≤ 3
          omega
  | settling =>
      have one := late d.lastDirection
      dsimp only
      omega

end

end LoraRan.GateLink
