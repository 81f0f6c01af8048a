import LoraRan.GateLink.Detections
import LoraRan.Library.Occurrence

namespace LoraRan.GateLink
open Library.Occurrence Protocol Node Watch

-- The alerts among what an update sends; a follow-up refines one and is none itself.

def isAlert : Push → Bool
  | .event e => e.eventType == .vehicleWhileHeldOpen && !e.followUp
  | .status _ => false

def alertCount (pushes : List Push) : Nat := pushes.countP isAlert

theorem alertCount_append (pushes more : List Push) : alertCount (pushes ++ more) = alertCount pushes + alertCount more := List.countP_append

namespace Watch
variable (w : Watch) (r : DetectRead)

-- A sensor rises while the gate is held.
def HeldEdge : Prop := w.d.rise r.inputs ≠ 0 ∧ r.g.held = true

-- The edge that classifies an armed detection.
def Crossing : Prop := w.d.phase = .armed ∧ w.d.otherRises r.inputs = true

def alertsNow : Bool := w.d.alertsNow r.inputs r.nowMs r.g r.p

def limitsNow : Bool := w.d.limitsNow r.inputs r.nowMs r.g r.p

theorem sends_alerts : alertCount (w.sends r) = if w.alertsNow r then 1 else 0 := by
  have marks := Detector.next_marks w.d r.inputs r.nowMs r.g r.p (w.ids r)
  have follow : ∀ n : Detector, ∀ dir, alertCount (n.resolvePushes r.g dir) = 0 := by
    intro n dir
    simp [alertCount,Detector.resolvePushes,Detector.followPush,isAlert]
  rw [sends_eq,Detector.asks_eq,alertCount_append]
  have none_ : alertCount (if w.d.resolves r.inputs r.nowMs r.p then
      (w.d.next r.inputs r.nowMs r.g r.p (w.ids r)).resolvePushes r.g (w.d.heading r.inputs) else []) = 0 := by
    split
    · exact follow _ _
    · rfl
  rw [none_]
  unfold alertsNow
  cases draws : w.d.draws r.inputs r.g with
  | false =>
      unfold Detector.alertsNow
      rw [draws]
      rfl
  | true =>
      have type := marks.eventType
      rw [draws,if_pos rfl] at type
      rw [if_pos rfl]
      cases alerts : w.d.alertsNow r.inputs r.nowMs r.g r.p with
      | true =>
          rw [alerts,if_pos rfl] at type
          simp [alertCount,Detector.firstPush,isAlert,type,GateContext.event]
      | false =>
          rw [alerts,if_neg (by decide)] at type
          simp [alertCount,Detector.firstPush,isAlert,type,GateContext.event]

theorem noticed : (w.alertsNow r = true ∨ w.limitsNow r = true) ↔ w.d.draws r.inputs r.g = true ∧ r.g.held = true := by
  have limit : w.d.limited r.nowMs r.g r.p = true → r.g.held = true := by
    intro limited
    unfold Detector.limited at limited
    simp only [Bool.and_eq_true] at limited
    exact limited.1.1.1
  unfold alertsNow limitsNow Detector.alertsNow Detector.limitsNow
  cases held : r.g.held with
  | false =>
      have unlimited : w.d.limited r.nowMs r.g r.p = false := by
        cases limited : w.d.limited r.nowMs r.g r.p with
        | true => exact absurd (held.symm.trans (limit limited)) (by decide)
        | false => rfl
      simp [unlimited]
  | true =>
      cases w.d.limited r.nowMs r.g r.p with
      | true => simp
      | false => simp

-- A busy detector takes note of its first held edge outside the crossing, and of no other.
theorem noticed_busy (busy : w.d.phase ≠ .idle) : (w.alertsNow r = true ∨ w.limitsNow r = true) ↔
    (w.HeldEdge r ∧ ¬w.Crossing r) ∧ ¬(w.d.alerted = true ∨ w.d.suppressed = true) := by
  rw [noticed]
  unfold HeldEdge Crossing Detector.draws
  cases phase : w.d.phase with
  | idle => exact absurd phase busy
  | armed =>
      dsimp only
      unfold Detector.lateAlert
      cases w.d.otherRises r.inputs with
      | true => simp
      | false =>
          simp
          tauto
  | settling =>
      dsimp only
      unfold Detector.lateAlert
      simp
      tauto

theorem noticed_first (idle : w.d.phase = .idle) : (w.alertsNow r = true ∨ w.limitsNow r = true) ↔ w.HeldEdge r := by
  rw [noticed]
  unfold HeldEdge Detector.draws
  rw [idle]
  dsimp only
  rw [bne_iff_ne]

-- The held edges of a detection, and an alert of the run at a time.

def HeldSomewhere : List DetectRead → Prop := Occurs fun pre r => (w.run pre).HeldEdge r

def HeldCrossing : List DetectRead → Prop := Occurs fun pre r => (w.run pre).HeldEdge r ∧ (w.run pre).Crossing r

def HeldElsewhere : List DetectRead → Prop := Occurs fun pre r => (w.run pre).HeldEdge r ∧ ¬(w.run pre).Crossing r

def AlertedAt (t : UInt32) : List DetectRead → Prop := Occurs fun pre r => alertCount ((w.run pre).sends r) = 1 ∧ r.nowMs = t

-- A held edge found an earlier alert of the run within the repeat limit.
def WithinLimit (before : List DetectRead) : List DetectRead → Prop := Occurs fun pre r =>
  (w.run (before ++ pre)).HeldEdge r ∧ ∃ t, w.AlertedAt t (before ++ pre) ∧ (r.nowMs - t).toNat < r.p.alertRepeatS.toNat * 1000

theorem held_somewhere (reads : List DetectRead) : w.HeldSomewhere reads ↔ w.HeldCrossing reads ∨ w.HeldElsewhere reads := by
  constructor
  · rintro ⟨pre,r,post,split_,edge⟩
    by_cases crossing : (w.run pre).Crossing r
    · exact .inl ⟨pre,r,post,split_,edge,crossing⟩
    · exact .inr ⟨pre,r,post,split_,edge,crossing⟩
  · rintro (crossing | elsewhere)
    · exact crossing.imp fun _ _ both => both.1
    · exact elsewhere.imp fun _ _ both => both.1

-- The limit goes by the time of an alert that was raised.
theorem alert_remembered (reads : List DetectRead) : (watched reads).d.alertEver = true → ({} : Watch).AlertedAt (watched reads).d.lastAlertMs reads := by
  induction reads using List.reverseRecOn with
  | nil => exact fun ever => Bool.noConfusion ever
  | append_singleton reads r ih =>
      have marks := Detector.next_marks (watched reads).d r.inputs r.nowMs r.g r.p ((watched reads).ids r)
      have count := sends_alerts (watched reads) r
      rw [watched_snoc]
      rw [← step_d] at marks
      unfold alertsNow at count
      intro ever
      rw [marks.alertEver] at ever
      rw [marks.lastAlert]
      cases alerts : (watched reads).d.alertsNow r.inputs r.nowMs r.g r.p with
      | true =>
          rw [alerts,if_pos rfl] at count
          exact (occurs_snoc reads r).mpr (.inr ⟨count,rfl⟩)
      | false =>
          rw [alerts,Bool.or_false] at ever
          exact (ih ever).later reads [r]

theorem limit_within (before pre : List DetectRead) (limits : (watched (before ++ pre)).limitsNow r = true)
    (edge : (watched (before ++ pre)).HeldEdge r) : (watched (before ++ pre)).HeldEdge r ∧
      ∃ t, ({} : Watch).AlertedAt t (before ++ pre) ∧ (r.nowMs - t).toNat < r.p.alertRepeatS.toNat * 1000 := by
  have remembered := alert_remembered (before ++ pre)
  generalize watched (before ++ pre) = s at limits edge remembered ⊢
  unfold limitsNow Detector.limitsNow Detector.limited at limits
  simp only [Bool.and_eq_true,decide_eq_true_eq] at limits
  obtain ⟨_,⟨_,ever⟩,near⟩ := limits
  refine ⟨edge,s.d.lastAlertMs,remembered ever,?_⟩
  rw [UInt32.lt_iff_toNat_lt,UInt32.toNat_mul] at near
  exact Nat.lt_of_lt_of_le near (Nat.mod_le ..)

-- What a detection so far has noted of its held edges, in the run it is part of.
structure Noted (before reads : List DetectRead) : Prop where
  count : alertCount ((watched before).trace reads) = if (watched (before ++ reads)).d.alerted then 1 else 0
  noticed : (watched (before ++ reads)).d.alerted = true ∨ (watched (before ++ reads)).d.suppressed = true ↔ (watched before).HeldElsewhere reads
  limit : (watched (before ++ reads)).d.suppressed = true → ({} : Watch).WithinLimit before reads

theorem noted_first (before : List DetectRead) (first : DetectRead) (idle : (watched before).d.phase = .idle)
    (edge : (watched before).d.rise first.inputs ≠ 0) : Noted before [first] := by
  have marks := Detector.next_marks (watched before).d first.inputs first.nowMs first.g first.p ((watched before).ids first)
  have count := sends_alerts (watched before) first
  have notices := noticed_first (watched before) first idle
  have begins : (watched before).d.begins first.inputs = true := by
    unfold Detector.begins
    rw [idle]
    exact bne_iff_ne.mpr edge
  have alerted := marks.alerted
  have suppressed := marks.suppressed
  rw [begins,Bool.not_true,Bool.false_and,Bool.false_or,← step_d] at alerted suppressed
  have crossing : ¬(watched before).Crossing first := fun crossing => absurd (idle.symm.trans crossing.1) (by decide)
  have limits := limit_within first before []
  rw [List.append_nil] at limits
  refine ⟨?_,?_,?_⟩
  · rw [watched_snoc,alerted]
    exact (congrArg alertCount (List.append_nil _)).trans count
  · rw [watched_snoc,alerted,suppressed]
    unfold HeldElsewhere
    rw [occurs_one]
    exact notices.trans ⟨fun held => ⟨held,crossing⟩,fun held => held.1⟩
  · rw [watched_snoc,suppressed]
    intro limited
    refine (occurs_one first).mpr ?_
    rw [List.append_nil]
    exact limits limited (notices.mp (.inr limited))

theorem noted_later (before reads : List DetectRead) (r : DetectRead) (busy : (watched (before ++ reads)).d.phase ≠ .idle)
    (noted : Noted before reads) : Noted before (reads ++ [r]) := by
  obtain ⟨count,noticed,limit⟩ := noted
  have marks := Detector.next_marks (watched (before ++ reads)).d r.inputs r.nowMs r.g r.p ((watched (before ++ reads)).ids r)
  have sends := sends_alerts (watched (before ++ reads)) r
  have notices := noticed_busy (watched (before ++ reads)) r busy
  have begins : (watched (before ++ reads)).d.begins r.inputs = false := by
    unfold Detector.begins
    rw [beq_false_of_ne busy,Bool.false_and]
  have alerted : ((watched (before ++ reads)).step r).d.alerted = ((watched (before ++ reads)).d.alerted || (watched (before ++ reads)).alertsNow r) := by
    rw [step_d,marks.alerted,begins]
    rfl
  have suppressed : ((watched (before ++ reads)).step r).d.suppressed =
      ((watched (before ++ reads)).d.suppressed || (watched (before ++ reads)).limitsNow r) := by
    rw [step_d,marks.suppressed,begins]
    rfl
  have limits := limit_within r before reads
  have whole : (watched before).run reads = watched (before ++ reads) := (watched_append before reads).symm
  refine ⟨?_,?_,?_⟩
  · rw [trace_snoc,alertCount_append,whole,sends,count,← List.append_assoc,watched_snoc,alerted]
    cases alerts : (watched (before ++ reads)).alertsNow r with
    | false =>
        rw [Bool.or_false]
        exact Nat.add_zero _
    | true =>
        have silent : (watched (before ++ reads)).d.alerted = false :=
          Bool.eq_false_iff.mpr fun already => (notices.mp (.inl alerts)).2 (.inl already)
        rw [silent]
        rfl
  · rw [← List.append_assoc,watched_snoc,alerted,suppressed]
    unfold HeldElsewhere at noticed ⊢
    rw [occurs_snoc,whole,← noticed,Bool.or_eq_true,Bool.or_eq_true]
    constructor
    · rintro ((old | new) | (old | new))
      · exact .inl (.inl old)
      · exact .inr (notices.mp (.inl new)).1
      · exact .inl (.inr old)
      · exact .inr (notices.mp (.inr new)).1
    · rintro (old | edge)
      · exact old.imp .inl .inl
      · by_cases already : (watched (before ++ reads)).d.alerted = true ∨ (watched (before ++ reads)).d.suppressed = true
        · exact already.imp .inl .inl
        · exact (notices.mpr ⟨edge,already⟩).imp .inr .inr
  · rw [← List.append_assoc,watched_snoc,suppressed]
    intro limited
    refine (occurs_snoc reads r).mpr ?_
    rcases Bool.or_eq_true_iff.mp limited with old | new
    · exact .inl (limit old)
    · exact .inr (limits new (notices.mp (.inr new)).1.1)

theorem course_noted {before : List DetectRead} {first : DetectRead} {rest : List DetectRead} (course : Course (watched before) first rest) :
    Noted before (first :: rest) := by
  refine course_induction (motive := fun rest => Noted before (first :: rest)) ?_ ?_ rest course
  · exact noted_first before first course.idle (course_begins course)
  · intro reads r _ busy noted
    exact noted_later before (first :: reads) r (by rw [watched_append]; exact busy) noted

end Watch

-- A detection accounts for its held edges exactly when one of them is not the edge that crosses.
theorem held_edges_accounted (before : List DetectRead) (first : DetectRead) (rest : List DetectRead)
    (detection : Detection (watched before) first rest) :
    ((watched before).HeldSomewhere (first :: rest) →
      alertCount ((watched before).trace (first :: rest)) = 1 ∨
        (watched (before ++ first :: rest)).d.suppressed = true ∧ ({} : Watch).WithinLimit before (first :: rest)) ↔
    ((watched before).HeldCrossing (first :: rest) → (watched before).HeldElsewhere (first :: rest)) := by
  obtain ⟨count,noticed,limit⟩ := course_noted detection.toCourse
  constructor
  · intro accounted crossing
    apply noticed.mp
    rcases accounted ((held_somewhere _ _).mpr (.inl crossing)) with one | ⟨suppressed,_⟩
    · rw [count] at one
      left
      by_contra silent
      rw [if_neg silent] at one
      exact absurd one (by decide)
    · exact .inr suppressed
  · intro another held
    have elsewhere : (watched before).HeldElsewhere (first :: rest) := by
      rcases (held_somewhere _ _).mp held with crossing | elsewhere
      · exact another crossing
      · exact elsewhere
    rcases noticed.mpr elsewhere with alerted | suppressed
    · left
      rw [count,if_pos alerted]
    · exact .inr ⟨suppressed,limit suppressed⟩

-- A gate that comes to be held between the two edges of a vehicle leaving.

def sensed (inputs : UInt8) (nowMs : UInt32) (held : Bool) : DetectRead where
  inputs := inputs
  nowMs := nowMs
  g := {held := held}
  p := {}
  others := 0

def quietGate : List DetectRead := [sensed 0 0 false]

def leaving : DetectRead := sensed inExit 1000 false

def crossesHeld : List DetectRead := [sensed sensors 2000 true,sensed 0 3000 true,sensed 0 13000 true]

def trailed : List DetectRead := [sensed sensors 2000 true,sensed inSafety 2500 true,sensed sensors 3000 true,sensed 0 4000 true,sensed 0 14000 true]

theorem held_crossing_unalerted : Detection (watched quietGate) leaving crossesHeld ∧
    ¬((watched quietGate).HeldSomewhere (leaving :: crossesHeld) →
      alertCount ((watched quietGate).trace (leaving :: crossesHeld)) = 1 ∨
        (watched (quietGate ++ leaving :: crossesHeld)).d.suppressed = true ∧ ({} : Watch).WithinLimit quietGate (leaving :: crossesHeld)) := by
  have started : Course (watched quietGate) leaving [] := course_start (by decide) (by decide)
  have detection : Detection (watched quietGate) leaving crossesHeld :=
    ⟨course_extend (course_extend (course_extend started (by decide)) (by decide)) (by decide),by decide⟩
  refine ⟨detection,?_⟩
  intro accounted
  rcases accounted ⟨[leaving],sensed sensors 2000 true,_,rfl,by decide,by decide⟩ with one | ⟨suppressed,_⟩
  · exact absurd one (by decide)
  · exact absurd suppressed (by decide)

theorem held_edges_accounted_trailer : alertCount ((watched quietGate).trace (leaving :: trailed)) = 1 ∨
    (watched (quietGate ++ leaving :: trailed)).d.suppressed = true ∧ ({} : Watch).WithinLimit quietGate (leaving :: trailed) := by
  have started : Course (watched quietGate) leaving [] := course_start (by decide) (by decide)
  have three := course_extend (course_extend (course_extend started (r := sensed sensors 2000 true) (by decide))
    (r := sensed inSafety 2500 true) (by decide)) (r := sensed sensors 3000 true) (by decide)
  have detection : Detection (watched quietGate) leaving trailed := ⟨course_extend (course_extend three (by decide)) (by decide),by decide⟩
  refine (held_edges_accounted quietGate leaving trailed detection).mpr (fun _ => ?_) ?_
  · exact ⟨[leaving,sensed sensors 2000 true,sensed inSafety 2500 true],sensed sensors 3000 true,_,rfl,⟨by decide,by decide⟩,fun crossing => absurd crossing.1 (by decide)⟩
  · exact ⟨[leaving],sensed sensors 2000 true,_,rfl,by decide,by decide⟩

end LoraRan.GateLink
