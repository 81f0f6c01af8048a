import LoraRan.GateLink.ChargeInhibit
import LoraRan.GateLink.DetectSteps
import LoraRan.GateLink.GateState

namespace LoraRan.GateLink
open Protocol VeDirect Node

-- The charger's ERR, sent when it changes. The first read is no baseline: an error there at boot is an edge from 0.
structure MpptErrorWatch where
  last : UInt8 := 0
  deriving DecidableEq

def MpptErrorWatch.update (w : MpptErrorWatch) (m : MpptSnapshot) (g : GateContext) (ids : UInt32) (out : List Push) :
    Bool × MpptErrorWatch × UInt32 × List Push :=
  if m.isStale ∨ m.mpptErr = codeNotAvailable then (false,w,ids,out)
  else if m.mpptErr = w.last then (false,w,ids,out)
  else
    let out := addPush out (.status .mpptError)
    (true,⟨m.mpptErr⟩,ids + 1,addPush out (.event {g.event .mpptError (ids + 1) with detail := m.mpptErr.toUInt16}))

-- What app_task keeps between passes, and what a pass reads. The counter of event ids is shared with lora_task, so each
-- component finds it at a value of its own.
structure AppTask where
  tracker : GateTracker := {}
  detector : Detector := {}
  alarmWatch : AlarmWatch := {}
  charge : ChargeInhibit := {}
  mpptErrors : MpptErrorWatch := {}

structure AppPass where
  pulses : List UInt8
  inputs : UInt8
  nowMs : UInt32
  uptimeS : UInt32
  gateParams : GateParams
  detectParams : DetectParams
  chargeParams : ChargeParams
  mppt : MpptSnapshot
  bms : BmsSnapshot
  detectIds : UInt32
  alarmIds : UInt32
  chargeIds : UInt32
  mpptIds : UInt32

-- The three lists of a pass.
structure AppPushes where
  gate : List Push
  alarm : List Push
  charge : List Push

def AppTask.tracked (t : AppTask) (i : AppPass) : GateTracker × GateChanged :=
  (i.pulses.foldl (fun t relay => t.notePulse relay i.nowMs) t.tracker).update i.inputs i.nowMs i.gateParams

def AppTask.context (t : AppTask) (i : AppPass) : GateContext :=
  let (tracker,_) := t.tracked i
  {held := tracker.held,holdSource := tracker.source,gateState := tracker.state,inputBits := i.inputs,uptimeS := i.uptimeS}

def AppTask.pass (t : AppTask) (i : AppPass) : AppTask × AppPushes :=
  let (tracker,changed) := t.tracked i
  let g := t.context i
  let out := if changed.state || changed.hold then addPush [] (.status (if changed.hold then .holdStateChange else .gateStateChange)) else []
  let detecting := t.detector.update i.inputs i.nowMs g i.detectParams i.detectIds out
  -- A list of its own, because a detection can fill the first.
  let (_,alarmWatch,_,alarmOut) := t.alarmWatch.update i.inputs g i.alarmIds []
  let (_,charge,_,chargeOut) := t.charge.update i.mppt i.bms i.nowMs i.chargeParams g i.chargeIds []
  -- Two at most, so they fit beside the charge inhibition's.
  let (_,mpptErrors,_,chargeOut) := t.mpptErrors.update i.mppt g i.mpptIds chargeOut
  (⟨tracker,detecting.d,alarmWatch,charge,mpptErrors⟩,⟨detecting.out,alarmOut,chargeOut⟩)

-- What each component asks for in a pass, in order.

def gateAsks (changed : GateChanged) : List Push :=
  if changed.state || changed.hold then [.status (if changed.hold then .holdStateChange else .gateStateChange)] else []

def alarmAsks (g : GateContext) (now changed : UInt8) (ids : UInt32) (a : Alarm) : List Push :=
  if !asserted changed a then []
  else .status a.reason :: if asserted now a then [.event (g.event a.event (ids + 1))] else []

def alarmDraws (now changed : UInt8) (ids : UInt32) (a : Alarm) : UInt32 := if asserted changed a && asserted now a then ids + 1 else ids

def AlarmWatch.asks (w : AlarmWatch) (inputs : UInt8) (g : GateContext) (ids : UInt32) : List Push :=
  let now := inputs &&& (inFire ||| inAlarm)
  if !w.seen then []
  else alarmAsks g now (now ^^^ w.last) ids .fire ++ alarmAsks g now (now ^^^ w.last) (alarmDraws now (now ^^^ w.last) ids .fire) .hardShutdown

def ChargeInhibit.asks (c : ChargeInhibit) (m : MpptSnapshot) (b : BmsSnapshot) (nowMs : UInt32) (p : ChargeParams) (g : GateContext)
    (ids : UInt32) : List Push :=
  let (path,next) := (c.vedUpdate m nowMs p).judge m b nowMs p
  if next = c.inhibited then []
  else .status .chargeInhibited ::
    if next then [.event {g.event .chargeInhibited (ids + 1) with detail := wirePath path}] else []

def MpptErrorWatch.asks (w : MpptErrorWatch) (m : MpptSnapshot) (g : GateContext) (ids : UInt32) : List Push :=
  if m.isStale ∨ m.mpptErr = codeNotAvailable then []
  else if m.mpptErr = w.last then []
  else [.status .mpptError,.event {g.event .mpptError (ids + 1) with detail := m.mpptErr.toUInt16}]

theorem noteAlarm_eq (g : GateContext) (now changed : UInt8) (ids : UInt32) (out : List Push) (a : Alarm) :
    noteAlarm g now changed ids out a = (alarmDraws now changed ids a,(alarmAsks g now changed ids a).foldl addPush out) := by
  unfold noteAlarm alarmDraws alarmAsks
  cases asserted changed a with
  | false => rfl
  | true =>
      cases asserted now a with
      | false => rfl
      | true => rfl

theorem alarmAsks_short (g : GateContext) (now changed : UInt8) (ids : UInt32) (a : Alarm) : (alarmAsks g now changed ids a).length ≤ 2 := by
  unfold alarmAsks
  split
  · exact Nat.zero_le 2
  · split
    · exact Nat.le_refl 2
    · exact Nat.le_succ 1

theorem AlarmWatch.update_asks (w : AlarmWatch) (inputs : UInt8) (g : GateContext) (ids : UInt32) (out : List Push) :
    (w.update inputs g ids out).2.2.2 = (w.asks inputs g ids).foldl addPush out := by
  unfold AlarmWatch.update AlarmWatch.asks
  dsimp only
  cases w.seen with
  | false => rfl
  | true =>
      simp only [Bool.not_true,Bool.false_eq_true,if_false]
      by_cases same : (inputs &&& (inFire ||| inAlarm)) ^^^ w.last = 0
      · rw [if_pos same,same]
        simp only [alarmAsks,asserted_zero]
        rfl
      · rw [if_neg same,List.foldl_append]
        simp only [alarms,List.foldl_cons,List.foldl_nil,noteAlarm_eq]

theorem AlarmWatch.asks_short (w : AlarmWatch) (inputs : UInt8) (g : GateContext) (ids : UInt32) : (w.asks inputs g ids).length ≤ 4 := by
  unfold AlarmWatch.asks
  dsimp only
  split
  · exact Nat.zero_le 4
  · rw [List.length_append]
    exact Nat.add_le_add (alarmAsks_short ..) (alarmAsks_short ..)

section
variable (c : ChargeInhibit) (m : MpptSnapshot) (b : BmsSnapshot) (nowMs : UInt32) (p : ChargeParams) (g : GateContext) (ids : UInt32) (out : List Push)

theorem vedUpdate_inhibited : (c.vedUpdate m nowMs p).inhibited = c.inhibited := by
  unfold ChargeInhibit.vedUpdate
  dsimp only
  split <;> split <;> first | rfl | (split <;> rfl)

theorem ChargeInhibit.update_asks : (c.update m b nowMs p g ids out).2.2.2 = (c.asks m b nowMs p g ids).foldl addPush out := by
  have kept := vedUpdate_inhibited c m nowMs p
  unfold ChargeInhibit.update ChargeInhibit.asks
  dsimp only
  rw [kept]
  cases next : ((c.vedUpdate m nowMs p).judge m b nowMs p).2 with
  | false =>
      split
      · rfl
      · rfl
  | true =>
      split
      · rfl
      · rfl

theorem ChargeInhibit.asks_short : (c.asks m b nowMs p g ids).length ≤ 2 := by
  unfold ChargeInhibit.asks
  dsimp only
  split
  · exact Nat.zero_le 2
  · split
    · exact Nat.le_refl 2
    · exact Nat.le_succ 1

theorem MpptErrorWatch.update_asks (w : MpptErrorWatch) : (w.update m g ids out).2.2.2 = (w.asks m g ids).foldl addPush out := by
  unfold MpptErrorWatch.update MpptErrorWatch.asks
  split
  · rfl
  · split
    · rfl
    · rfl

theorem MpptErrorWatch.asks_short (w : MpptErrorWatch) : (w.asks m g ids).length ≤ 2 := by
  unfold MpptErrorWatch.asks
  split
  · exact Nat.zero_le 2
  · split
    · exact Nat.zero_le 2
    · exact Nat.le_refl 2

end

namespace AppTask
variable (t : AppTask) (i : AppPass)

def asks : AppPushes where
  gate := gateAsks (t.tracked i).2 ++ t.detector.asks i.inputs i.nowMs (t.context i) i.detectParams i.detectIds
  alarm := t.alarmWatch.asks i.inputs (t.context i) i.alarmIds
  charge := t.charge.asks i.mppt i.bms i.nowMs i.chargeParams (t.context i) i.chargeIds ++ t.mpptErrors.asks i.mppt (t.context i) i.mpptIds

theorem pass_asks : (t.pass i).2.gate = (t.asks i).gate.foldl addPush [] ∧ (t.pass i).2.alarm = (t.asks i).alarm.foldl addPush [] ∧
    (t.pass i).2.charge = (t.asks i).charge.foldl addPush [] := by
  unfold pass asks
  dsimp only
  refine ⟨?_,AlarmWatch.update_asks ..,?_⟩
  · rw [update_eq,List.foldl_append]
    dsimp only
    congr 1
    unfold gateAsks
    split
    · rfl
    · rfl
  · rw [MpptErrorWatch.update_asks,ChargeInhibit.update_asks,List.foldl_append]

theorem asks_fit : (t.asks i).gate.length ≤ pushListCap ∧ (t.asks i).alarm.length ≤ pushListCap ∧ (t.asks i).charge.length ≤ pushListCap := by
  unfold asks pushListCap
  refine ⟨?_,AlarmWatch.asks_short ..,?_⟩
  · have status : (gateAsks (t.tracked i).2).length ≤ 1 := by
      unfold gateAsks
      split
      · exact Nat.le_refl 1
      · exact Nat.zero_le 1
    have detection := asks_short t.detector i.inputs i.nowMs (t.context i) i.detectParams i.detectIds
    rw [List.length_append]
    omega
  · rw [List.length_append]
    exact Nat.add_le_add (ChargeInhibit.asks_short ..) (MpptErrorWatch.asks_short ..)

end AppTask

-- In any pass of any state every list takes all it is asked for.
theorem no_push_is_refused (t : AppTask) (i : AppPass) :
    (refuses [] (t.asks i).gate = false ∧ refuses [] (t.asks i).alarm = false ∧ refuses [] (t.asks i).charge = false) ∧
      (t.pass i).2 = t.asks i ∧
      (t.pass i).2.gate.length ≤ pushListCap ∧ (t.pass i).2.alarm.length ≤ pushListCap ∧ (t.pass i).2.charge.length ≤ pushListCap := by
  obtain ⟨gate,alarm,charge⟩ := t.pass_asks i
  obtain ⟨gateFits,alarmFits,chargeFits⟩ := t.asks_fit i
  obtain ⟨gateTakes,gateWhole⟩ := asked_whole [] (t.asks i).gate (by rw [List.length_nil]; omega)
  obtain ⟨alarmTakes,alarmWhole⟩ := asked_whole [] (t.asks i).alarm (by rw [List.length_nil]; omega)
  obtain ⟨chargeTakes,chargeWhole⟩ := asked_whole [] (t.asks i).charge (by rw [List.length_nil]; omega)
  rw [gateWhole] at gate
  rw [alarmWhole] at alarm
  rw [chargeWhole] at charge
  have same : (t.pass i).2 = t.asks i := by
    cases pushes : (t.pass i).2 with
    | mk g a c =>
        rw [pushes] at gate alarm charge
        dsimp only at gate alarm charge
        rw [gate,alarm,charge]
        rfl
  rw [same]
  exact ⟨⟨gateTakes,alarmTakes,chargeTakes⟩,rfl,gateFits,alarmFits,chargeFits⟩

end LoraRan.GateLink
