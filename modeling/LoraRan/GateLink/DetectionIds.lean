import LoraRan.GateLink.HeldAlerts

namespace LoraRan.GateLink
open Library.Occurrence Protocol Node Watch

-- The events that are no follow-ups.

def asFresh : Push → Option GateLinkEvent
  | .event e => if e.followUp then none else some e
  | .status _ => none

def freshEvents (pushes : List Push) : List GateLinkEvent := pushes.filterMap asFresh

def AllFresh (pushes : List Push) : Prop := ∀ push ∈ pushes, asFresh push ≠ none

def detectedCount (pushes : List Push) : Nat := (freshEvents pushes).countP fun e => e.eventType == .vehicleDetected

theorem freshEvents_append (pushes more : List Push) : freshEvents (pushes ++ more) = freshEvents pushes ++ freshEvents more := List.filterMap_append

theorem detectedCount_append (pushes more : List Push) : detectedCount (pushes ++ more) = detectedCount pushes + detectedCount more := by
  unfold detectedCount
  rw [freshEvents_append,List.countP_append]

theorem allFresh_append {pushes more : List Push} (first : AllFresh pushes) (second : AllFresh more) : AllFresh (pushes ++ more) := by
  intro push present
  rcases List.mem_append.mp present with one | two
  · exact first push one
  · exact second push two

theorem sensors_only : ∀ b : BitVec 8, b &&& 12#8 = b → b = 0#8 ∨ b = 8#8 ∨ b = 4#8 ∨ b = 12#8 := by decide

-- What rises is one of the sensors or both.
theorem rise_cases (d : Detector) (inputs : UInt8) (edge : d.rise inputs ≠ 0) :
    d.rise inputs = inExit ∨ d.rise inputs = inSafety ∨ d.rise inputs = sensors := by
  have within : d.rise inputs &&& sensors = d.rise inputs := by
    unfold Detector.rise
    split
    · rw [UInt8.and_assoc,UInt8.and_comm (~~~d.prev) sensors,← UInt8.and_assoc,UInt8.and_assoc inputs,UInt8.and_self]
    · rfl
  rcases sensors_only (d.rise inputs).toBitVec (congrArg UInt8.toBitVec within) with none_ | exit | safety | both
  · exact absurd (UInt8.eq_of_toBitVec_eq none_) edge
  · exact .inl (UInt8.eq_of_toBitVec_eq exit)
  · exact .inr (.inl (UInt8.eq_of_toBitVec_eq safety))
  · exact .inr (.inr (UInt8.eq_of_toBitVec_eq both))

namespace Watch
section
variable (w : Watch) (r : DetectRead)

-- What an update draws an id for, and what it sends when it resolves.

def drawnPushes : List Push :=
  if w.d.draws r.inputs r.g then [(w.step r).d.firstPush r.g (if w.d.phase = .settling then w.d.lastDirection else .undetermined)] else []

def resolution : List Push :=
  if w.d.resolves r.inputs r.nowMs r.p then (w.step r).d.resolvePushes r.g (w.d.heading r.inputs) else []

theorem sends_parts : w.sends r = w.drawnPushes r ++ w.resolution r := by
  unfold drawnPushes resolution
  rw [sends_eq,Detector.asks_eq,step_d]

theorem drawnPushes_fresh : AllFresh (w.drawnPushes r) := by
  unfold drawnPushes
  split
  · intro push present
    rw [List.mem_singleton.mp present]
    simp [Detector.firstPush,asFresh,GateContext.event]
  · intro push present
    cases present

theorem resolution_none : freshEvents (w.resolution r) = [] := by
  unfold resolution
  split
  · simp [Detector.resolvePushes,Detector.followPush,freshEvents,asFresh]
  · rfl

-- The event drawn carries the detector's id and type.
theorem sends_fresh : freshEvents (w.sends r) = freshEvents (w.drawnPushes r) := by
  rw [sends_parts,freshEvents_append,resolution_none,List.append_nil]

theorem drawn_event : (w.d.draws r.inputs r.g = false ∧ freshEvents (w.drawnPushes r) = []) ∨
    w.d.draws r.inputs r.g = true ∧ ∃ e, freshEvents (w.drawnPushes r) = [e] ∧ e.eventId = (w.step r).d.eventId ∧ e.eventType = (w.step r).d.eventType := by
  unfold drawnPushes
  cases w.d.draws r.inputs r.g with
  | false => exact .inl ⟨rfl,rfl⟩
  | true => exact .inr ⟨rfl,_,rfl,rfl,rfl⟩

theorem step_eventId : (w.step r).d.eventId = if w.d.draws r.inputs r.g then w.ids r + 1 else w.d.eventId := by
  rw [step_d]
  exact (Detector.next_marks ..).eventId

theorem step_eventType : (w.step r).d.eventType =
    if w.d.draws r.inputs r.g then (if w.alertsNow r then .vehicleWhileHeldOpen else .vehicleDetected) else w.d.eventType := by
  rw [step_d]
  exact (Detector.next_marks ..).eventType

end

-- Ids rise over a run in which the counter does not come round.

def Rising (ids : List UInt32) : Prop := ids.Pairwise (· < ·)

theorem ids_bounded (reads : List DetectRead) (short : (watched reads).drawn < 2 ^ 32) :
    Rising ((freshEvents (({} : Watch).trace reads)).map (·.eventId)) ∧
      ∀ e ∈ freshEvents (({} : Watch).trace reads), e.eventId.toNat ≤ (watched reads).drawn := by
  induction reads using List.reverseRecOn with
  | nil =>
      refine ⟨List.Pairwise.nil,?_⟩
      intro e present
      cases present
  | append_singleton reads r ih =>
      have drawn : (watched (reads ++ [r])).drawn = (watched reads).drawn + r.others + if (watched reads).d.draws r.inputs r.g then 1 else 0 := by
        rw [watched_snoc]
        rfl
      obtain ⟨rising,bounded⟩ := ih (by omega)
      have id := step_eventId (watched reads) r
      rw [trace_snoc,freshEvents_append]
      change Rising (List.map _ (_ ++ freshEvents ((watched reads).sends r))) ∧ ∀ e ∈ _ ++ freshEvents ((watched reads).sends r), _
      rw [sends_fresh]
      rcases drawn_event (watched reads) r with ⟨draws,none_⟩ | ⟨draws,e,one,eventId,_⟩
      · rw [none_,List.append_nil]
        refine ⟨rising,?_⟩
        intro e present
        have old := bounded e present
        omega
      · rw [draws,if_pos rfl] at drawn id
        have value : e.eventId.toNat = (watched reads).drawn + r.others + 1 := by
          have one_ : (1 : UInt32).toNat = 1 := rfl
          rw [eventId,id,Watch.ids,UInt32.toNat_add,one_,UInt32.toNat_ofNat']
          omega
        rw [one,List.map_append]
        refine ⟨List.pairwise_append.mpr ⟨rising,List.pairwise_singleton ..,?_⟩,?_⟩
        · intro old present new last
          obtain ⟨earlier,from_,rfl⟩ := List.mem_map.mp present
          have bound := bounded earlier from_
          rw [List.mem_singleton.mp last]
          change earlier.eventId.toNat < e.eventId.toNat
          omega
        · intro old present
          rcases List.mem_append.mp present with earlier | last
          · have bound := bounded old earlier
            omega
          · rw [List.mem_singleton.mp last]
            omega

-- The latest event drawn is the one the detector remembers.
def Latest (pushes : List Push) (d : Detector) : Prop :=
  ∃ e, (freshEvents pushes).getLast? = some e ∧ e.eventId = d.eventId ∧ e.eventType = d.eventType

-- History as the inputs tell it: since when both sensors have been clear, and whether the window or the quiet time has run out.

def clearStep (since : Option UInt32) (r : DetectRead) : Option UInt32 :=
  if r.inputs &&& sensors = 0 then some (since.getD r.nowMs) else none

def clearSince (reads : List DetectRead) : Option UInt32 := reads.foldl clearStep none

theorem clearSince_snoc (reads : List DetectRead) (r : DetectRead) : clearSince (reads ++ [r]) = clearStep (clearSince reads) r := by
  unfold clearSince
  rw [List.foldl_append]
  rfl

def RunOut (first : DetectRead) (pre : List DetectRead) (r : DetectRead) : Prop :=
  r.p.windowMs ≤ r.nowMs - first.nowMs ∨ ∃ t, clearSince (first :: pre ++ [r]) = some t ∧ r.p.idleMs ≤ r.nowMs - t

section
variable (w : Watch) (first : DetectRead)

-- A sensor other than the one that came first rises.
def OtherEdge (pre : List DetectRead) (r : DetectRead) : Prop :=
  (w.run (first :: pre)).d.rise r.inputs &&& ~~~w.d.rise first.inputs ≠ 0

def OtherInTime : List DetectRead → Prop := Occurs fun pre r => w.OtherEdge first pre r ∧ ¬Occurs (RunOut first) pre

-- What the detector keeps of a detection's start and of the sensors since.
structure Kept (rest : List DetectRead) : Prop where
  start : (w.run (first :: rest)).d.startMs = first.nowMs
  clear : clearSince (first :: rest) = if (w.run (first :: rest)).d.quiet then some (w.run (first :: rest)).d.quietSinceMs else none
  sensor : w.d.rise first.inputs ≠ sensors → (w.run (first :: rest)).d.first = w.d.rise first.inputs

theorem kept_first (idle : w.d.phase = .idle) (edge : w.d.rise first.inputs ≠ 0) : w.Kept first [] := by
  have levels := Detector.next_levels w.d first.inputs first.nowMs first.g first.p (w.ids first)
  have begins : w.d.begins first.inputs = true := by
    unfold Detector.begins
    rw [idle]
    exact bne_iff_ne.mpr edge
  have bits := Detector.rise_bits w.d first.inputs edge
  obtain ⟨_,_,quiet,_,start,sensor⟩ := levels
  rw [← step_d] at quiet start sensor
  refine ⟨?_,?_,?_⟩
  · change (w.step first).d.startMs = first.nowMs
    rw [start,begins,if_pos rfl]
  · change clearStep none first = if (w.step first).d.quiet then _ else none
    rw [quiet,decide_eq_false bits]
    exact if_neg bits
  · intro one
    have resolves : w.d.resolves first.inputs first.nowMs first.p = false := by
      unfold Detector.resolves
      rw [idle]
      exact beq_false_of_ne one
    change (w.step first).d.first = _
    rw [sensor,begins,resolves]
    rfl

theorem kept_later (rest : List DetectRead) (r : DetectRead) (busy : (w.run (first :: rest)).d.phase ≠ .idle) (kept : w.Kept first rest) :
    w.Kept first (rest ++ [r]) := by
  obtain ⟨start,clear,sensor⟩ := kept
  have levels := Detector.next_levels (w.run (first :: rest)).d r.inputs r.nowMs r.g r.p ((w.run (first :: rest)).ids r)
  have begins : (w.run (first :: rest)).d.begins r.inputs = false := by
    unfold Detector.begins
    rw [beq_false_of_ne busy,Bool.false_and]
  obtain ⟨_,_,quiet',since',start',sensor'⟩ := levels
  rw [← step_d] at quiet' since' start' sensor'
  rw [begins] at start' sensor'
  have whole : w.run (first :: (rest ++ [r])) = (w.run (first :: rest)).step r := run_snoc w r (first :: rest)
  refine ⟨?_,?_,?_⟩
  · rw [whole,start']
    exact start
  · have longer : clearSince (first :: (rest ++ [r])) = clearStep (clearSince (first :: rest)) r := clearSince_snoc (first :: rest) r
    rw [longer,whole,quiet',since',clear]
    unfold clearStep
    by_cases now : r.inputs &&& sensors = 0
    · rw [if_pos now,decide_eq_true now,if_pos rfl]
      cases (w.run (first :: rest)).d.quiet with
      | true => simp
      | false => simp [now]
    · rw [if_neg now,decide_eq_false now]
      rfl
  · intro one
    rw [whole,sensor']
    exact sensor one

-- The detector's own judgement is the history's.
theorem expired_iff (rest : List DetectRead) (r : DetectRead) (kept : w.Kept first rest) :
    ((w.run (first :: rest)).d.read r.inputs r.nowMs).expired r.nowMs r.p = true ↔ RunOut first rest r := by
  obtain ⟨start,clear,_⟩ := kept
  have longer : clearSince (first :: rest ++ [r]) = clearStep (clearSince (first :: rest)) r := clearSince_snoc (first :: rest) r
  unfold RunOut Detector.expired
  rw [longer,clear,Detector.read_eq]
  dsimp only
  rw [start,Bool.or_eq_true,Bool.and_eq_true,decide_eq_true_eq,decide_eq_true_eq,decide_eq_true_eq]
  apply or_congr Iff.rfl
  unfold clearStep
  by_cases now : r.inputs &&& sensors = 0
  · cases (w.run (first :: rest)).d.quiet with
    | true => simp [now]
    | false => simp [now]
  · simp [now]

-- The direction a detection is to be given.
structure Heads (rest : List DetectRead) (dir : Direction) : Prop where
  exit : dir = .exit ↔ w.d.rise first.inputs = inExit ∧ w.OtherInTime first rest
  entry : dir = .entry ↔ w.d.rise first.inputs = inSafety ∧ w.OtherInTime first rest
  undetermined : dir = .undetermined ↔
    ¬((w.d.rise first.inputs = inExit ∨ w.d.rise first.inputs = inSafety) ∧ w.OtherInTime first rest)

theorem heads_both (rest : List DetectRead) (both : w.d.rise first.inputs = sensors) : w.Heads first rest .undetermined := by
  have notExit : w.d.rise first.inputs ≠ inExit := by
    rw [both]
    decide
  have notSafety : w.d.rise first.inputs ≠ inSafety := by
    rw [both]
    decide
  refine ⟨⟨fun is => Direction.noConfusion is,fun is => absurd is.1 notExit⟩,⟨fun is => Direction.noConfusion is,fun is => absurd is.1 notSafety⟩,?_⟩
  refine ⟨fun _ one => ?_,fun _ => rfl⟩
  rcases one.1 with exit | safety
  · exact notExit exit
  · exact notSafety safety

theorem heads_late (rest : List DetectRead) (late : ¬w.OtherInTime first rest) : w.Heads first rest .undetermined :=
  ⟨⟨fun is => Direction.noConfusion is,fun is => absurd is.2 late⟩,⟨fun is => Direction.noConfusion is,fun is => absurd is.2 late⟩,
    ⟨fun _ one => late one.2,fun _ => rfl⟩⟩

theorem heads_crossed (rest : List DetectRead) (edge : w.d.rise first.inputs ≠ 0) (one : w.d.rise first.inputs ≠ sensors)
    (inTime : w.OtherInTime first rest) : w.Heads first rest (if w.d.rise first.inputs = inExit then .exit else .entry) := by
  rcases rise_cases w.d first.inputs edge with exit | safety | both
  · rw [exit,if_pos rfl]
    refine ⟨⟨fun _ => ⟨exit,inTime⟩,fun _ => rfl⟩,⟨fun is => Direction.noConfusion is,fun is => ?_⟩,⟨fun is => Direction.noConfusion is,fun is => ?_⟩⟩
    · exact absurd (exit.symm.trans is.1) (by decide)
    · exact absurd ⟨.inl exit,inTime⟩ is
  · have other : w.d.rise first.inputs ≠ inExit := by
      rw [safety]
      decide
    rw [if_neg other]
    refine ⟨⟨fun is => Direction.noConfusion is,fun is => absurd is.1 other⟩,⟨fun _ => ⟨safety,inTime⟩,fun _ => rfl⟩,⟨fun is => Direction.noConfusion is,fun is => ?_⟩⟩
    exact absurd ⟨.inr safety,inTime⟩ is
  · exact absurd both one

-- Once it is settled, what rises later changes no direction.
def Settled (rest : List DetectRead) : Prop :=
  w.d.rise first.inputs = sensors ∨ w.OtherInTime first rest ∨ Occurs (RunOut first) rest

theorem heads_extend (rest : List DetectRead) (r : DetectRead) (dir : Direction) (settled : w.Settled first rest) (heads : w.Heads first rest dir) :
    w.Heads first (rest ++ [r]) dir := by
  rcases settled with both | decided
  · have is : dir = .undetermined := heads.undetermined.mpr fun one => by
      rcases one.1 with exit | safety
      · exact absurd (both.symm.trans exit) (by decide)
      · exact absurd (both.symm.trans safety) (by decide)
    rw [is]
    exact heads_both w first _ both
  · have same : w.OtherInTime first (rest ++ [r]) ↔ w.OtherInTime first rest := by
      unfold OtherInTime
      rw [occurs_snoc]
      refine ⟨?_,.inl⟩
      rintro (old | new)
      · exact old
      · rcases decided with inTime | out
        · exact inTime
        · exact absurd out new.2
    obtain ⟨exit,entry,undetermined⟩ := heads
    rw [← same] at exit entry undetermined
    exact ⟨exit,entry,undetermined⟩

-- The update that resolves a detection, and all that the detection sends besides.
structure Classified (rest pre : List DetectRead) (r : DetectRead) (post : List DetectRead) (drawn : List Push) (latest follow : GateLinkEvent) :
    Prop where
  whole : first :: rest = pre ++ r :: post
  leaves : pre = [] ∧ w.d.rise first.inputs = sensors ∨ (w.run pre).d.phase = .armed ∧ (w.run (pre ++ [r])).d.phase ≠ .armed
  sent : (w.run pre).sends r = drawn ++ [.event follow,.status .vehicleDetected]
  others : AllFresh (w.trace pre ++ drawn ++ (w.run (pre ++ [r])).trace post)
  last : (freshEvents (w.trace pre ++ drawn)).getLast? = some latest
  refines : follow.followUp = true ∧ follow.eventId = latest.eventId ∧ follow.eventType = latest.eventType
  heads : w.Heads first rest follow.direction

-- What holds of a detection so far.
structure Identified (rest : List DetectRead) : Prop where
  kept : w.Kept first rest
  latest : Latest (w.trace (first :: rest)) (w.run (first :: rest)).d
  open_ : (w.run (first :: rest)).d.phase = .armed → w.d.rise first.inputs ≠ sensors ∧ AllFresh (w.trace (first :: rest)) ∧
    ¬Occurs (w.OtherEdge first) rest ∧ ¬Occurs (RunOut first) rest
  closed : (w.run (first :: rest)).d.phase ≠ .armed → w.Settled first rest ∧
    ∃ pre r post drawn latest follow, w.Classified first rest pre r post drawn latest follow

-- The latest event after an update that may have drawn one.
theorem latest_drawn {pushes : List Push} (r : DetectRead) (before : Latest pushes w.d) : Latest (pushes ++ w.drawnPushes r) (w.step r).d := by
  have id := step_eventId w r
  have type := step_eventType w r
  obtain ⟨e,last,eventId,eventType⟩ := before
  unfold Latest
  rw [freshEvents_append]
  rcases drawn_event w r with ⟨draws,none_⟩ | ⟨draws,drawn,one,drawnId,drawnType⟩
  · rw [draws] at id type
    rw [none_,List.append_nil]
    exact ⟨e,last,eventId.trans id.symm,eventType.trans type.symm⟩
  · rw [one]
    exact ⟨drawn,List.getLast?_concat,drawnId,drawnType⟩

theorem latest_sent {pushes : List Push} {d : Detector} (r : DetectRead) (drawn : Latest (pushes ++ w.drawnPushes r) d) :
    Latest (pushes ++ w.sends r) d := by
  unfold Latest at drawn ⊢
  rw [freshEvents_append] at drawn ⊢
  rw [sends_fresh]
  exact drawn

-- The follow-up an update sends when it resolves.
def followEvent (r : DetectRead) : GateLinkEvent :=
  {r.g.event (w.step r).d.eventType (w.step r).d.eventId with followUp := true,direction := w.d.heading r.inputs}

theorem resolution_sent (r : DetectRead) (resolves : w.d.resolves r.inputs r.nowMs r.p = true) :
    w.sends r = w.drawnPushes r ++ [.event (w.followEvent r),.status .vehicleDetected] := by
  rw [sends_parts]
  unfold resolution
  rw [if_pos resolves]
  rfl

theorem unresolved_sent (r : DetectRead) (unresolved : w.d.resolves r.inputs r.nowMs r.p = false) : w.sends r = w.drawnPushes r := by
  rw [sends_parts]
  unfold resolution
  rw [unresolved]
  exact List.append_nil _

theorem identified_first (idle : w.d.phase = .idle) (edge : w.d.rise first.inputs ≠ 0) : w.Identified first [] := by
  have phase := Detector.idle_phase w.d first.inputs first.nowMs first.g first.p (w.ids first) idle
  rw [← step_d,if_neg edge] at phase
  have draws : w.d.draws first.inputs first.g = true := by
    unfold Detector.draws
    rw [idle]
    exact bne_iff_ne.mpr edge
  have traced : w.trace [first] = w.sends first := List.append_nil _
  rcases drawn_event w first with ⟨undrawn,_⟩ | ⟨_,e,one,drawnId,drawnType⟩
  · exact absurd (draws.symm.trans undrawn) (by decide)
  have latest : Latest (w.trace [first]) (w.step first).d := by
    refine ⟨e,?_,drawnId,drawnType⟩
    rw [traced,sends_fresh,one]
    rfl
  by_cases both : w.d.rise first.inputs = sensors
  · have resolves : w.d.resolves first.inputs first.nowMs first.p = true := by
      unfold Detector.resolves
      rw [idle]
      exact beq_iff_eq.mpr both
    have heading : (w.followEvent first).direction = .undetermined := by
      change w.d.heading first.inputs = .undetermined
      unfold Detector.heading
      rw [idle]
    rw [if_pos both] at phase
    refine ⟨kept_first w first idle edge,latest,fun armed => absurd (phase.symm.trans armed) (by decide),fun _ => ⟨.inl both,?_⟩⟩
    refine ⟨[],first,[],w.drawnPushes first,e,w.followEvent first,rfl,.inl ⟨rfl,both⟩,resolution_sent w first resolves,?_,?_,?_,?_⟩
    · exact allFresh_append (drawnPushes_fresh w first) (by intro push present; cases present)
    · exact congrArg List.getLast? one
    · exact ⟨rfl,drawnId.symm,drawnType.symm⟩
    · rw [heading]
      exact heads_both w first [] both
  · have unresolved : w.d.resolves first.inputs first.nowMs first.p = false := by
      unfold Detector.resolves
      rw [idle]
      exact beq_false_of_ne both
    rw [if_neg both] at phase
    refine ⟨kept_first w first idle edge,latest,fun _ => ⟨both,?_,occurs_nil,occurs_nil⟩,fun leaves => absurd phase leaves⟩
    rw [traced,unresolved_sent w first unresolved]
    exact drawnPushes_fresh w first

theorem identified_armed (rest : List DetectRead) (r : DetectRead) (edge : w.d.rise first.inputs ≠ 0)
    (armed : (w.run (first :: rest)).d.phase = .armed) (prior : w.Identified first rest) : w.Identified first (rest ++ [r]) := by
  obtain ⟨one,fresh,noOther,noOut⟩ := prior.open_ armed
  have phase := Detector.armed_phase (w.run (first :: rest)).d r.inputs r.nowMs r.g r.p ((w.run (first :: rest)).ids r) armed
  rw [← step_d] at phase
  have whole : w.run (first :: (rest ++ [r])) = (w.run (first :: rest)).step r := run_snoc w r (first :: rest)
  have traced : w.trace (first :: (rest ++ [r])) = w.trace (first :: rest) ++ (w.run (first :: rest)).sends r := trace_snoc w r (first :: rest)
  have kept := kept_later w first rest r (by rw [armed]; decide) prior.kept
  have latest := latest_drawn (w.run (first :: rest)) r prior.latest
  have other : (w.run (first :: rest)).d.otherRises r.inputs = true ↔ w.OtherEdge first rest r := by
    unfold Detector.otherRises OtherEdge
    rw [prior.kept.sensor one]
    exact bne_iff_ne
  have out := expired_iff w first rest r prior.kept
  have resolves : (w.run (first :: rest)).d.resolves r.inputs r.nowMs r.p = true ↔ w.OtherEdge first rest r ∨ RunOut first rest r := by
    unfold Detector.resolves
    rw [armed]
    dsimp only
    rw [Bool.or_eq_true]
    exact or_congr other out
  have heading : (w.run (first :: rest)).d.heading r.inputs =
      if (w.run (first :: rest)).d.otherRises r.inputs then (if w.d.rise first.inputs = inExit then .exit else .entry) else .undetermined := by
    unfold Detector.heading
    rw [armed,prior.kept.sensor one]
  refine ⟨kept,?_,?_,?_⟩
  · rw [traced,whole]
    exact latest_sent _ r latest
  · intro still
    rw [whole,phase] at still
    have unresolved : (w.run (first :: rest)).d.resolves r.inputs r.nowMs r.p = false := by
      cases done : (w.run (first :: rest)).d.resolves r.inputs r.nowMs r.p with
      | false => rfl
      | true =>
          rw [done,if_pos rfl] at still
          split at still
          · cases still
          · cases still
    have neither : ¬(w.OtherEdge first rest r ∨ RunOut first rest r) := fun either =>
      absurd (unresolved.symm.trans (resolves.mpr either)) (by decide)
    refine ⟨one,?_,?_,?_⟩
    · rw [traced,unresolved_sent _ r unresolved]
      exact allFresh_append fresh (drawnPushes_fresh _ r)
    · rw [occurs_snoc]
      rintro (earlier | now)
      · exact noOther earlier
      · exact neither (.inl now)
    · rw [occurs_snoc]
      rintro (earlier | now)
      · exact noOut earlier
      · exact neither (.inr now)
  · intro leaves
    rw [whole,phase] at leaves
    have done : (w.run (first :: rest)).d.resolves r.inputs r.nowMs r.p = true := by
      cases done : (w.run (first :: rest)).d.resolves r.inputs r.nowMs r.p with
      | true => rfl
      | false =>
          rw [done] at leaves
          exact absurd rfl leaves
    have settled : w.OtherInTime first (rest ++ [r]) ∨ Occurs (RunOut first) (rest ++ [r]) := by
      rcases resolves.mp done with rises | expires
      · exact .inl ((occurs_snoc rest r).mpr (.inr ⟨rises,noOut⟩))
      · exact .inr ((occurs_snoc rest r).mpr (.inr expires))
    obtain ⟨e,last,eventId,eventType⟩ := latest
    refine ⟨.inr settled,first :: rest,r,[],(w.run (first :: rest)).drawnPushes r,e,(w.run (first :: rest)).followEvent r,rfl,
      .inr ⟨armed,?_⟩,resolution_sent _ r done,?_,last,⟨rfl,eventId.symm,eventType.symm⟩,?_⟩
    · rw [← List.cons_append] at whole
      rw [whole,phase]
      exact leaves
    · rw [trace,List.append_nil]
      exact allFresh_append fresh (drawnPushes_fresh _ r)
    · change w.Heads first (rest ++ [r]) ((w.run (first :: rest)).d.heading r.inputs)
      rw [heading]
      cases rises : (w.run (first :: rest)).d.otherRises r.inputs with
      | true => exact heads_crossed w first _ edge one ((occurs_snoc rest r).mpr (.inr ⟨other.mp rises,noOut⟩))
      | false =>
          apply heads_late w first
          intro inTime
          rcases (occurs_snoc rest r).mp inTime with earlier | now
          · exact noOther (earlier.imp fun _ _ both => both.1)
          · exact absurd (rises.symm.trans (other.mpr now.1)) (by decide)

theorem identified_settling (rest : List DetectRead) (r : DetectRead) (settling : (w.run (first :: rest)).d.phase = .settling)
    (prior : w.Identified first rest) : w.Identified first (rest ++ [r]) := by
  have phase := Detector.settling_phase (w.run (first :: rest)).d r.inputs r.nowMs r.g r.p ((w.run (first :: rest)).ids r) settling
  rw [← step_d] at phase
  have whole : w.run (first :: (rest ++ [r])) = (w.run (first :: rest)).step r := run_snoc w r (first :: rest)
  have traced : w.trace (first :: (rest ++ [r])) = w.trace (first :: rest) ++ (w.run (first :: rest)).sends r := trace_snoc w r (first :: rest)
  have unresolved : (w.run (first :: rest)).d.resolves r.inputs r.nowMs r.p = false := by
    unfold Detector.resolves
    rw [settling]
  have sent := unresolved_sent (w.run (first :: rest)) r unresolved
  have notArmed : (w.run (first :: rest)).d.phase ≠ .armed := by
    rw [settling]
    decide
  obtain ⟨settled,pre,at_,post,drawn,latest,follow,classified⟩ := prior.closed notArmed
  refine ⟨kept_later w first rest r (by rw [settling]; decide) prior.kept,?_,?_,?_⟩
  · rw [traced,whole]
    exact latest_sent _ r (latest_drawn _ r prior.latest)
  · intro armed
    rw [whole] at armed
    exact absurd armed phase
  · intro _
    refine ⟨?_,pre,at_,post ++ [r],drawn,latest,follow,?_⟩
    · rcases settled with both | inTime | out
      · exact .inl both
      · exact .inr (.inl (inTime.later rest [r]))
      · exact .inr (.inr (out.later rest [r]))
    · obtain ⟨split_,leaves,sends,others,last,refines,heads⟩ := classified
      refine ⟨?_,leaves,sends,?_,last,refines,heads_extend w first rest r _ settled heads⟩
      · rw [← List.cons_append,split_,List.append_assoc,List.cons_append]
      · have reached : (w.run (pre ++ [at_])).run post = w.run (first :: rest) := by
          rw [← run_append,split_,List.append_assoc,List.singleton_append]
        rw [trace_snoc,reached,sent,← List.append_assoc]
        exact allFresh_append others (drawnPushes_fresh _ r)

theorem course_identified {rest : List DetectRead} (course : Course w first rest) : w.Identified first rest := by
  have edge := course_begins course
  refine course_induction (motive := w.Identified first) (identified_first w first course.idle edge) ?_ rest course
  intro rest r _ busy prior
  have reached : (w.step first).run rest = w.run (first :: rest) := rfl
  rw [reached] at busy
  cases phase : (w.run (first :: rest)).d.phase with
  | idle => exact absurd phase busy
  | armed => exact identified_armed w first rest r edge phase prior
  | settling => exact identified_settling w first rest r phase prior

-- A later event of a detection that finds the repeat limit.
def LimitedLate : List DetectRead → Prop := Occurs fun pre r => (w.run (first :: pre)).limitsNow r = true

-- Events that say no more than that a vehicle is there: the first one, and each that finds the limit.
structure Detected (rest : List DetectRead) : Prop where
  early : (w.run (first :: rest)).d.alerted = false → (w.run (first :: rest)).d.suppressed = false → 1 ≤ detectedCount (w.trace (first :: rest))
  few : ¬w.LimitedLate first rest → detectedCount (w.trace (first :: rest)) ≤ 1
  many : w.LimitedLate first rest → 2 ≤ detectedCount (w.trace (first :: rest))

theorem drawn_count (r : DetectRead) : detectedCount (w.sends r) = if w.d.draws r.inputs r.g && !w.alertsNow r then 1 else 0 := by
  have type := step_eventType w r
  unfold detectedCount
  rw [sends_fresh]
  rcases drawn_event w r with ⟨draws,none_⟩ | ⟨draws,e,one,_,eventType⟩
  · rw [none_,draws]
    rfl
  · rw [draws,if_pos rfl,← eventType] at type
    rw [one,draws,Bool.true_and,List.countP_singleton,type]
    cases w.alertsNow r with
    | true => rfl
    | false => rfl

theorem detected_first (idle : w.d.phase = .idle) (edge : w.d.rise first.inputs ≠ 0) : w.Detected first [] := by
  have marks := Detector.next_marks w.d first.inputs first.nowMs first.g first.p (w.ids first)
  have begins : w.d.begins first.inputs = true := by
    unfold Detector.begins
    rw [idle]
    exact bne_iff_ne.mpr edge
  have draws : w.d.draws first.inputs first.g = true := by
    unfold Detector.draws
    rw [idle]
    exact bne_iff_ne.mpr edge
  have alerted : (w.run [first]).d.alerted = w.alertsNow first := by
    change (w.step first).d.alerted = _
    rw [step_d,marks.alerted,begins]
    rfl
  have count : detectedCount (w.trace [first]) = if !w.alertsNow first then 1 else 0 := by
    change detectedCount (w.sends first ++ []) = _
    rw [List.append_nil,drawn_count,draws,Bool.true_and]
  refine ⟨?_,?_,fun limited => absurd limited occurs_nil⟩
  · intro silent _
    rw [count,← alerted,silent]
    exact Nat.le_refl 1
  · intro _
    rw [count]
    split
    · exact Nat.le_refl 1
    · exact Nat.zero_le 1

theorem draws_held (r : DetectRead) (busy : w.d.phase ≠ .idle) (draws : w.d.draws r.inputs r.g = true) : r.g.held = true := by
  have late : w.d.lateAlert r.inputs r.g = true := by
    unfold Detector.draws at draws
    cases phase : w.d.phase with
    | idle => exact absurd phase busy
    | armed =>
        rw [phase] at draws
        exact (Bool.and_eq_true_iff.mp draws).2
    | settling =>
        rw [phase] at draws
        exact draws
  unfold Detector.lateAlert at late
  simp only [Bool.and_eq_true] at late
  exact late.1.1.2

theorem limits_silent (r : DetectRead) (limits : w.limitsNow r = true) : w.d.draws r.inputs r.g = true ∧ w.alertsNow r = false := by
  unfold limitsNow Detector.limitsNow at limits
  obtain ⟨draws,limited⟩ := Bool.and_eq_true_iff.mp limits
  refine ⟨draws,?_⟩
  unfold alertsNow Detector.alertsNow
  rw [draws,limited]
  exact Bool.and_false _

theorem detected_later (rest : List DetectRead) (r : DetectRead) (busy : (w.run (first :: rest)).d.phase ≠ .idle) (prior : w.Detected first rest) :
    w.Detected first (rest ++ [r]) := by
  obtain ⟨early,few,many⟩ := prior
  have marks := Detector.next_marks (w.run (first :: rest)).d r.inputs r.nowMs r.g r.p ((w.run (first :: rest)).ids r)
  have begins : (w.run (first :: rest)).d.begins r.inputs = false := by
    unfold Detector.begins
    rw [beq_false_of_ne busy,Bool.false_and]
  have whole : w.run (first :: (rest ++ [r])) = (w.run (first :: rest)).step r := run_snoc w r (first :: rest)
  have count : detectedCount (w.trace (first :: (rest ++ [r]))) = detectedCount (w.trace (first :: rest)) +
      if (w.run (first :: rest)).d.draws r.inputs r.g && !(w.run (first :: rest)).alertsNow r then 1 else 0 := by
    rw [← List.cons_append,trace_snoc,detectedCount_append,drawn_count]
  refine ⟨?_,?_,?_⟩
  · intro silent unsuppressed
    rw [whole,step_d,marks.alerted,begins,Bool.not_false,Bool.true_and] at silent
    rw [whole,step_d,marks.suppressed,begins,Bool.not_false,Bool.true_and] at unsuppressed
    have one := early (Bool.or_eq_false_iff.mp silent).1 (Bool.or_eq_false_iff.mp unsuppressed).1
    omega
  · intro unlimited
    unfold LimitedLate at unlimited
    rw [occurs_snoc] at unlimited
    have one := few fun earlier => unlimited (.inl earlier)
    have added : ((w.run (first :: rest)).d.draws r.inputs r.g && !(w.run (first :: rest)).alertsNow r) = false := by
      cases draws : (w.run (first :: rest)).d.draws r.inputs r.g with
      | false => rfl
      | true =>
          rcases (noticed (w.run (first :: rest)) r).mpr ⟨draws,draws_held _ r busy draws⟩ with alerts | limits
          · rw [alerts]
            rfl
          · exact absurd (.inr limits) unlimited
    rw [count,added]
    exact one
  · intro limited
    rw [count]
    rcases (occurs_snoc rest r).mp limited with earlier | now
    · have two := many earlier
      omega
    · obtain ⟨draws,silent⟩ := limits_silent _ r now
      have unnoticed := ((noticed_busy _ r busy).mp (.inr now)).2
      have one := early (Bool.eq_false_iff.mpr fun alerted => unnoticed (.inl alerted)) (Bool.eq_false_iff.mpr fun suppressed => unnoticed (.inr suppressed))
      rw [draws,silent]
      exact Nat.succ_le_succ one

theorem course_detected {rest : List DetectRead} (course : Course w first rest) : w.Detected first rest := by
  refine course_induction (motive := w.Detected first) (detected_first w first course.idle (course_begins course)) ?_ rest course
  intro rest r _ busy prior
  exact detected_later w first rest r busy prior

-- One identity: no more than one event of each kind, and one follow-up to the latest of them with one STATUS.
structure OneIdentity (rest : List DetectRead) : Prop where
  detected : detectedCount (w.trace (first :: rest)) ≤ 1
  alerts : alertCount (w.trace (first :: rest)) ≤ 1
  classified : ∃ pre r post drawn latest follow, w.Classified first rest pre r post drawn latest follow

end

end Watch

-- Ids rise while the counter does not come round, and a detection has one identity exactly when no later event of it finds the
-- repeat limit.
theorem one_detection_one_identity (reads : List DetectRead) :
    ((watched reads).drawn < 2 ^ 32 → Rising ((freshEvents (({} : Watch).trace reads)).map (·.eventId))) ∧
    ∀ before first rest later, reads = before ++ (first :: rest) ++ later → Detection (watched before) first rest →
      ((watched before).OneIdentity first rest ↔ ¬(watched before).LimitedLate first rest) := by
  refine ⟨fun short => (ids_bounded reads short).1,?_⟩
  intro before first rest later _ detection
  have detected := course_detected (watched before) first detection.toCourse
  have identified := course_identified (watched before) first detection.toCourse
  have noted := course_noted detection.toCourse
  constructor
  · intro identity limited
    have many := detected.many limited
    have few := identity.detected
    omega
  · intro unlimited
    refine ⟨detected.few unlimited,?_,?_⟩
    · rw [noted.count]
      split
      · exact Nat.le_refl 1
      · exact Nat.zero_le 1
    · have ended : ((watched before).run (first :: rest)).d.phase = .idle := detection.ended
      exact (identified.closed (by rw [ended]; decide)).2

-- A vehicle held up within the repeat limit of an alert, after the gate is held under it.

def limitedAt (inputs : UInt8) (nowMs : UInt32) (held : Bool) : DetectRead where
  inputs := inputs
  nowMs := nowMs
  g := {held := held}
  p := {alertRepeatS := 60}
  others := 0

def alertedBefore : List DetectRead :=
  [limitedAt 0 0 true,limitedAt inSafety 1000 true,limitedAt 0 2000 true,limitedAt 0 12000 true]

def heldUnder : List DetectRead := [limitedAt 0 21000 false,limitedAt inExit 22000 true,limitedAt 0 23000 true,limitedAt 0 33000 true]

theorem detected_twice : Detection (watched alertedBefore) (limitedAt inExit 20000 false) heldUnder ∧
    ¬detectedCount ((watched alertedBefore).trace (limitedAt inExit 20000 false :: heldUnder)) ≤ 1 := by
  have started : Course (watched alertedBefore) (limitedAt inExit 20000 false) [] := course_start (by decide) (by decide)
  have two := course_extend (course_extend started (r := limitedAt 0 21000 false) (by decide)) (r := limitedAt inExit 22000 true) (by decide)
  have detection : Detection (watched alertedBefore) (limitedAt inExit 20000 false) heldUnder :=
    ⟨course_extend (course_extend two (by decide)) (by decide),by decide⟩
  exact ⟨detection,by decide⟩

end LoraRan.GateLink
