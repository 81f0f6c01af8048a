import LoraRan.GateLink.DetectSteps
import LoraRan.Library.Occurrence
import Mathlib.Data.List.Induction

namespace LoraRan.GateLink
open Library.Occurrence Protocol Node

namespace Detector
section
variable (d : Detector) (inputs : UInt8) (nowMs : UInt32) (g : GateContext) (p : DetectParams) (ids : UInt32)

-- What an update is, by the state before it.

def begins : Bool := d.phase == .idle && d.rise inputs != 0

def alertsNow : Bool := d.draws inputs g && (g.held && !d.limited nowMs g p)

def limitsNow : Bool := d.draws inputs g && d.limited nowMs g p

def resolves : Bool :=
  match d.phase with
  | .idle => d.rise inputs == sensors
  | .armed => d.otherRises inputs || (d.read inputs nowMs).expired nowMs p
  | .settling => false

def heading : Direction :=
  match d.phase with
  | .armed => if d.otherRises inputs then (if d.first = inExit then .exit else .entry) else .undetermined
  | _ => .undetermined

theorem read_eq : d.read inputs nowMs = {d with
    prev := inputs &&& sensors,primed := true,quiet := decide (inputs &&& sensors = 0)
    quietSinceMs := if inputs &&& sensors = 0 ∧ d.quiet = false then nowMs else d.quietSinceMs} := by
  unfold read
  by_cases clear : inputs &&& sensors = 0
  · cases quiet : d.quiet with
    | true => simp [clear]
    | false => simp [clear]
  · simp [clear]

theorem note_eq : d.note ids nowMs g p = {d with
    suppressed := d.suppressed || d.limited nowMs g p
    alerted := d.alerted || (g.held && !d.limited nowMs g p)
    alertEver := d.alertEver || (g.held && !d.limited nowMs g p)
    lastAlertMs := if g.held && !d.limited nowMs g p then nowMs else d.lastAlertMs
    eventType := if g.held && !d.limited nowMs g p then .vehicleWhileHeldOpen else .vehicleDetected
    eventId := ids + 1} := by
  have limit : (g.held && p.alertRepeatS != 0 && d.alertEver && decide (nowMs - d.lastAlertMs < p.alertRepeatS * 1000)) =
      d.limited nowMs g p := rfl
  unfold note Detecting.firstEvent
  dsimp only
  rw [limit]
  cases g.held && !d.limited nowMs g p with
  | true => simp
  | false => simp

theorem settle_eq (dir : Direction) (traversal : Bool) : d.settle dir traversal nowMs = {d with
    lastDirection := dir,crossed := traversal,traversalSeen := traversal || d.traversalSeen
    traversalMs := if traversal then nowMs else d.traversalMs,phase := if d.quiet then .idle else .settling} := by
  unfold settle Detecting.resolve
  cases traversal with
  | true => rfl
  | false => rfl

theorem late_eq : d.late inputs nowMs g p ids =
    if d.lateAlert inputs g then (d.read inputs nowMs).note ids nowMs g p else d.read inputs nowMs := rfl

theorem limited_read : (d.read inputs nowMs).limited nowMs g p = d.limited nowMs g p := by
  rw [read_eq]
  rfl

-- A late alert moves neither the start of the detection nor the quiet time.
theorem late_expired : (d.late inputs nowMs g p ids).expired nowMs p = (d.read inputs nowMs).expired nowMs p := by
  rw [late_eq]
  split
  · rw [note_eq]
    rfl
  · rfl

theorem rise_bits (edge : d.rise inputs ≠ 0) : inputs &&& sensors ≠ 0 := by
  intro clear
  unfold rise at edge
  rw [clear] at edge
  split at edge
  · exact edge (UInt8.zero_and ..)
  · exact edge rfl

-- What an update leaves of the alert and of the event.
structure Marks (d n : Detector) (inputs : UInt8) (nowMs : UInt32) (g : GateContext) (p : DetectParams) (ids : UInt32) : Prop where
  alerted : n.alerted = (!d.begins inputs && d.alerted || d.alertsNow inputs nowMs g p)
  suppressed : n.suppressed = (!d.begins inputs && d.suppressed || d.limitsNow inputs nowMs g p)
  alertEver : n.alertEver = (d.alertEver || d.alertsNow inputs nowMs g p)
  lastAlert : n.lastAlertMs = if d.alertsNow inputs nowMs g p then nowMs else d.lastAlertMs
  eventId : n.eventId = if d.draws inputs g then ids + 1 else d.eventId
  eventType : n.eventType =
    if d.draws inputs g then (if d.alertsNow inputs nowMs g p then .vehicleWhileHeldOpen else .vehicleDetected) else d.eventType

theorem late_marks (busy : d.phase ≠ .idle) (draws : d.draws inputs g = d.lateAlert inputs g) :
    Marks d (d.late inputs nowMs g p ids) inputs nowMs g p ids := by
  have begins : d.begins inputs = false := by
    unfold begins
    simp [busy]
  have limit := limited_read d inputs nowMs g p
  rw [late_eq]
  cases late : d.lateAlert inputs g with
  | true =>
      rw [late] at draws
      rw [if_pos rfl,note_eq,limit,read_eq]
      constructor <;> simp [alertsNow,limitsNow,begins,draws]
  | false =>
      rw [late] at draws
      rw [if_neg (by decide),read_eq]
      constructor <;> simp [alertsNow,limitsNow,begins,draws]

theorem settle_marks {n : Detector} (dir : Direction) (traversal : Bool) (marks : Marks d n inputs nowMs g p ids) :
    Marks d (n.settle dir traversal nowMs) inputs nowMs g p ids := by
  rw [settle_eq]
  exact ⟨marks.alerted,marks.suppressed,marks.alertEver,marks.lastAlert,marks.eventId,marks.eventType⟩

theorem next_marks : Marks d (d.next inputs nowMs g p ids) inputs nowMs g p ids := by
  have limit := limited_read d inputs nowMs g p
  cases phase : d.phase with
  | idle =>
      unfold next
      rw [phase]
      dsimp only
      split
      · rename_i still
        have draws : d.draws inputs g = false := by
          unfold draws
          rw [phase,still]
          rfl
        rw [read_eq]
        constructor <;> simp [alertsNow,limitsNow,begins,draws,still]
      · rename_i edge
        have draws : d.draws inputs g = true := by
          unfold draws
          rw [phase]
          exact bne_iff_ne.mpr edge
        have begins : d.begins inputs = true := by
          unfold begins
          rw [phase]
          exact bne_iff_ne.mpr edge
        have limit_ : ((d.read inputs nowMs).begin nowMs).limited nowMs g p = d.limited nowMs g p := limit
        have begun : Marks d (((d.read inputs nowMs).begin nowMs).note ids nowMs g p) inputs nowMs g p ids := by
          rw [note_eq,limit_,read_eq]
          constructor <;> simp [alertsNow,limitsNow,begins,draws,begin]
        split
        · exact settle_marks d inputs nowMs g p ids _ _ begun
        · exact ⟨begun.alerted,begun.suppressed,begun.alertEver,begun.lastAlert,begun.eventId,begun.eventType⟩
  | armed =>
      have busy : d.phase ≠ .idle := by
        rw [phase]
        decide
      unfold next
      rw [phase]
      dsimp only
      cases other : d.otherRises inputs with
      | true =>
          have draws : d.draws inputs g = false := by
            unfold draws
            rw [phase]
            dsimp only
            rw [other]
            rfl
          have begins : d.begins inputs = false := by
            unfold begins
            simp [busy]
          rw [if_pos rfl]
          apply settle_marks
          rw [read_eq]
          constructor <;> simp [alertsNow,limitsNow,begins,draws]
      | false =>
          have draws : d.draws inputs g = d.lateAlert inputs g := by
            unfold draws
            rw [phase]
            dsimp only
            rw [other]
            rfl
          have late := late_marks d inputs nowMs g p ids busy draws
          rw [if_neg (by decide)]
          split
          · exact settle_marks d inputs nowMs g p ids _ _ late
          · exact late
  | settling =>
      have late := late_marks d inputs nowMs g p ids (by rw [phase]; decide) (by unfold draws; rw [phase])
      unfold next
      rw [phase]
      dsimp only
      split
      · exact ⟨late.alerted,late.suppressed,late.alertEver,late.lastAlert,late.eventId,late.eventType⟩
      · exact late

-- What an update leaves of the levels, the clocks and the sensor that came first.
structure Levels (d n : Detector) (inputs : UInt8) (nowMs : UInt32) (p : DetectParams) : Prop where
  prev : n.prev = inputs &&& sensors
  primed : n.primed = true
  quiet : n.quiet = decide (inputs &&& sensors = 0)
  quietSince : n.quietSinceMs = if inputs &&& sensors = 0 ∧ d.quiet = false then nowMs else d.quietSinceMs
  start : n.startMs = if d.begins inputs then nowMs else d.startMs
  first : n.first = if d.begins inputs && !d.resolves inputs nowMs p then d.rise inputs else d.first

theorem read_levels (busy : d.begins inputs = false) : Levels d (d.read inputs nowMs) inputs nowMs p := by
  rw [read_eq]
  constructor <;> simp [busy]

theorem note_levels {n : Detector} (levels : Levels d n inputs nowMs p) : Levels d (n.note ids nowMs g p) inputs nowMs p := by
  rw [note_eq]
  exact ⟨levels.prev,levels.primed,levels.quiet,levels.quietSince,levels.start,levels.first⟩

theorem settle_levels {n : Detector} (dir : Direction) (traversal : Bool) (levels : Levels d n inputs nowMs p) :
    Levels d (n.settle dir traversal nowMs) inputs nowMs p := by
  rw [settle_eq]
  exact ⟨levels.prev,levels.primed,levels.quiet,levels.quietSince,levels.start,levels.first⟩

theorem late_levels (busy : d.begins inputs = false) : Levels d (d.late inputs nowMs g p ids) inputs nowMs p := by
  have levels := read_levels d inputs nowMs p busy
  rw [late_eq]
  split
  · exact note_levels d inputs nowMs g p ids levels
  · exact levels

theorem next_levels : Levels d (d.next inputs nowMs g p ids) inputs nowMs p := by
  cases phase : d.phase with
  | idle =>
      unfold next
      rw [phase]
      dsimp only
      split
      · rename_i still
        apply read_levels
        unfold begins
        rw [still]
        exact Bool.and_false _
      · rename_i edge
        have begins : d.begins inputs = true := by
          unfold begins
          rw [phase]
          exact bne_iff_ne.mpr edge
        rw [note_eq,settle_eq,read_eq]
        split
        · rename_i both
          have resolves : d.resolves inputs nowMs p = true := by
            unfold resolves
            rw [phase]
            exact beq_iff_eq.mpr both
          constructor <;> simp [begins,resolves,begin]
        · rename_i one
          have resolves : d.resolves inputs nowMs p = false := by
            unfold resolves
            rw [phase]
            exact beq_false_of_ne one
          constructor <;> simp [begins,resolves,begin]
  | armed =>
      have busy : d.begins inputs = false := by
        unfold begins
        rw [phase]
        rfl
      have late := late_levels d inputs nowMs g p ids busy
      unfold next
      rw [phase]
      dsimp only
      split
      · exact settle_levels d inputs nowMs p _ _ (read_levels d inputs nowMs p busy)
      · split
        · exact settle_levels d inputs nowMs p _ _ late
        · exact late
  | settling =>
      have busy : d.begins inputs = false := by
        unfold begins
        rw [phase]
        rfl
      have late := late_levels d inputs nowMs g p ids busy
      unfold next
      rw [phase]
      dsimp only
      split
      · exact ⟨late.prev,late.primed,late.quiet,late.quietSince,late.start,late.first⟩
      · exact late

-- The phases an update leads between.

theorem late_phase : (d.late inputs nowMs g p ids).phase = d.phase := by
  rw [late_eq]
  split
  · rw [note_eq,read_eq]
  · rw [read_eq]

theorem late_quiet : (d.late inputs nowMs g p ids).quiet = decide (inputs &&& sensors = 0) := by
  rw [late_eq]
  split
  · rw [note_eq,read_eq]
  · rw [read_eq]

theorem idle_phase (phase : d.phase = .idle) : (d.next inputs nowMs g p ids).phase =
    if d.rise inputs = 0 then .idle else if d.rise inputs = sensors then .settling else .armed := by
  unfold next
  rw [phase]
  dsimp only
  split
  · rw [read_eq]
    exact phase
  · rename_i edge
    split
    · rw [settle_eq,note_eq,read_eq]
      exact if_neg (by simp [begin,rise_bits d inputs edge])
    · rfl

theorem armed_phase (phase : d.phase = .armed) : (d.next inputs nowMs g p ids).phase =
    if d.resolves inputs nowMs p then (if inputs &&& sensors = 0 then .idle else .settling) else .armed := by
  have expired := late_expired d inputs nowMs g p ids
  have quiet := late_quiet d inputs nowMs g p ids
  have kept := late_phase d inputs nowMs g p ids
  unfold next resolves
  rw [phase]
  dsimp only
  cases other : d.otherRises inputs with
  | true =>
      rw [if_pos rfl,settle_eq,read_eq]
      simp
  | false =>
      rw [if_neg (by decide),expired,Bool.false_or]
      split
      · rw [settle_eq]
        dsimp only
        rw [quiet]
        simp
      · rw [kept,phase]

theorem settling_phase (phase : d.phase = .settling) : (d.next inputs nowMs g p ids).phase ≠ .armed := by
  have kept := late_phase d inputs nowMs g p ids
  unfold next
  rw [phase]
  dsimp only
  split
  · intro armed
    cases armed
  · rw [kept,phase]
    decide

theorem settle_firstPush (dir settled : Direction) (traversal : Bool) :
    (d.settle settled traversal nowMs).firstPush g dir = d.firstPush g dir := by
  rw [settle_eq]
  rfl

theorem settle_resolvePushes (dir settled : Direction) (traversal : Bool) :
    (d.settle settled traversal nowMs).resolvePushes g dir = d.resolvePushes g dir := by
  rw [settle_eq]
  rfl

-- The event an update draws, and what it sends when it resolves.
theorem asks_eq : d.asks inputs nowMs g p ids =
    (if d.draws inputs g then [(d.next inputs nowMs g p ids).firstPush g (if d.phase = .settling then d.lastDirection else .undetermined)] else []) ++
      if d.resolves inputs nowMs p then (d.next inputs nowMs g p ids).resolvePushes g (d.heading inputs) else [] := by
  have expired := late_expired d inputs nowMs g p ids
  unfold asks next draws resolves heading latePushes
  cases phase : d.phase with
  | idle =>
      dsimp only
      by_cases still : d.rise inputs = 0
      · rw [if_pos still,still]
        rfl
      · have draws : (d.rise inputs != 0) = true := bne_iff_ne.mpr still
        rw [if_neg still,if_neg still,draws]
        by_cases both : d.rise inputs = sensors
        · rw [if_pos both,if_pos both,both,settle_eq]
          rfl
        · rw [if_neg both,if_neg both,beq_false_of_ne both]
          rfl
  | armed =>
      dsimp only
      cases other : d.otherRises inputs with
      | true =>
          rw [if_pos rfl,if_pos rfl,settle_eq]
          rfl
      | false =>
          simp only [Bool.false_eq_true,if_false,Bool.not_false,Bool.true_and,Bool.false_or,expired,reduceCtorEq]
          cases (d.read inputs nowMs).expired nowMs p with
          | true => simp only [if_true,settle_firstPush,settle_resolvePushes]
          | false => simp only [Bool.false_eq_true,if_false]
  | settling =>
      dsimp only
      cases (d.late inputs nowMs g p ids).cleared nowMs p with
      | true =>
          simp only [if_true,Bool.false_eq_true,if_false,List.append_nil]
          rfl
      | false => simp only [if_true,Bool.false_eq_true,if_false,List.append_nil]

end
end Detector

-- An update of the detector: what it is given, and how many ids the counter's other users drew since the last one.
structure DetectRead where
  inputs : UInt8
  nowMs : UInt32
  g : GateContext
  p : DetectParams
  others : Nat

-- The detector and the ids drawn so far, of which the counter keeps 32 bits.
structure Watch where
  d : Detector := {}
  drawn : Nat := 0

namespace Watch
section
variable (w : Watch) (r : DetectRead)

def ids : UInt32 := UInt32.ofNat (w.drawn + r.others)

def update : Detecting := w.d.update r.inputs r.nowMs r.g r.p (w.ids r) []

def step : Watch where
  d := (w.update r).d
  drawn := w.drawn + r.others + if w.d.draws r.inputs r.g then 1 else 0

def sends : List Push := (w.update r).out

def run (reads : List DetectRead) : Watch := reads.foldl step w

def trace (w : Watch) : List DetectRead → List Push
  | [] => []
  | r :: rest => w.sends r ++ (w.step r).trace rest

theorem step_d : (w.step r).d = w.d.next r.inputs r.nowMs r.g r.p (w.ids r) := by
  unfold step update
  rw [update_eq]

theorem sends_eq : w.sends r = w.d.asks r.inputs r.nowMs r.g r.p (w.ids r) := by
  have short := asks_short w.d r.inputs r.nowMs r.g r.p (w.ids r)
  unfold sends update
  rw [update_eq]
  exact (asked_whole [] _ (Nat.le_trans (Nat.le_of_eq (Nat.zero_add _)) (Nat.le_succ_of_le short))).2

theorem run_append (reads more : List DetectRead) : w.run (reads ++ more) = (w.run reads).run more := List.foldl_append

theorem run_snoc (reads : List DetectRead) : w.run (reads ++ [r]) = (w.run reads).step r := run_append w reads [r]

theorem trace_append (reads more : List DetectRead) : w.trace (reads ++ more) = w.trace reads ++ (w.run reads).trace more := by
  induction reads generalizing w with
  | nil => rfl
  | cons r rest ih =>
      change w.sends r ++ (w.step r).trace (rest ++ more) = w.sends r ++ (w.step r).trace rest ++ _
      rw [ih,List.append_assoc]
      rfl

theorem trace_snoc (reads : List DetectRead) : w.trace (reads ++ [r]) = w.trace reads ++ (w.run reads).sends r := by
  rw [trace_append]
  change _ ++ ((w.run reads).sends r ++ []) = _
  rw [List.append_nil]

end

-- The run of a detector from its start.
def watched (reads : List DetectRead) : Watch := ({} : Watch).run reads

theorem watched_append (reads more : List DetectRead) : watched (reads ++ more) = (watched reads).run more := run_append {} reads more

theorem watched_snoc (reads : List DetectRead) (r : DetectRead) : watched (reads ++ [r]) = (watched reads).step r := run_snoc {} r reads

-- A detection so far: the update that leaves Idle, and updates that each find it left.
structure Course (w : Watch) (first : DetectRead) (rest : List DetectRead) : Prop where
  idle : w.d.phase = .idle
  leaves : (w.step first).d.phase ≠ .idle
  busy : ¬Occurs (fun pre _ => ((w.step first).run pre).d.phase = .idle) rest

-- A whole one, to the update that returns to Idle.
structure Detection (w : Watch) (first : DetectRead) (rest : List DetectRead) : Prop extends Course w first rest where
  ended : ((w.step first).run rest).d.phase = .idle

theorem course_snoc {w : Watch} {first r : DetectRead} {rest : List DetectRead} (course : Course w first (rest ++ [r])) :
    Course w first rest ∧ ((w.step first).run rest).d.phase ≠ .idle := by
  have busy := course.busy
  rw [occurs_snoc] at busy
  exact ⟨⟨course.idle,course.leaves,fun earlier => busy (.inl earlier)⟩,fun ended => busy (.inr ended)⟩

theorem course_start {w : Watch} {first : DetectRead} (idle : w.d.phase = .idle) (leaves : (w.step first).d.phase ≠ .idle) : Course w first [] :=
  ⟨idle,leaves,occurs_nil⟩

theorem course_extend {w : Watch} {first r : DetectRead} {rest : List DetectRead} (course : Course w first rest)
    (busy : ((w.step first).run rest).d.phase ≠ .idle) : Course w first (rest ++ [r]) := by
  refine ⟨course.idle,course.leaves,?_⟩
  rw [occurs_snoc]
  rintro (earlier | ended)
  · exact course.busy earlier
  · exact busy ended

-- What the first update establishes and every later one preserves holds over the course.
theorem course_induction {w : Watch} {first : DetectRead} {motive : List DetectRead → Prop} (start : motive [])
    (later : ∀ rest r, Course w first rest → ((w.step first).run rest).d.phase ≠ .idle → motive rest → motive (rest ++ [r])) :
    ∀ rest, Course w first rest → motive rest := by
  intro rest
  induction rest using List.reverseRecOn with
  | nil => exact fun _ => start
  | append_singleton rest r ih =>
      intro course
      obtain ⟨prior,busy⟩ := course_snoc course
      exact later rest r prior busy (ih prior)

theorem course_begins {w : Watch} {first : DetectRead} {rest : List DetectRead} (course : Course w first rest) : w.d.rise first.inputs ≠ 0 := by
  intro still
  have leaves := course.leaves
  rw [step_d,Detector.idle_phase _ _ _ _ _ _ course.idle,if_pos still] at leaves
  exact leaves rfl

end Watch

end LoraRan.GateLink
