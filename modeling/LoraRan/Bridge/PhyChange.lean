import LoraRan.Config.Table
import LoraRan.Library.Clock

namespace LoraRan.Bridge
open Protocol Config Library.Clock

-- The six rows in one fixed order; a row of the bridge's and the node's row of the same index differ only in id.
abbrev PhyGroup := Fin phyGroupSize → Value

def bridgePhyIds : List UInt16 := [0x0010,0x0011,0x0012,0x0013,0x0014,0x0015]
def nodePhyIds : List UInt16 := [0x0110,0x0111,0x0112,0x0113,0x0114,0x0115]

def phyTrialS : Fin phyGroupSize := ⟨5,by decide⟩

def phyIndexOf (id : UInt16) : Option (Fin phyGroupSize) :=
  (List.finRange phyGroupSize).find? fun i => bridgePhyIds.getD i 0 == id || nodePhyIds.getD i 0 == id

inductive PhyAction where
  | none | sendSet | retune | sendPoll | commit | sendGet | nodeConfirmed | abandon | readback
  deriving DecidableEq, Repr

inductive PhyReason where
  | none | notAccepted | notHeard | commitFailed
  deriving DecidableEq, Repr

structure PhyStep where
  action : PhyAction := .none
  dst : NodeId := 0
  group : PhyGroup := fun _ => 0
  reason : PhyReason := .none
  culprit : NodeId := 0
  retuned : Bool := false
  results : List ConfigAckEntry := []

inductive PhyPhase where
  | idle | setDue | awaitingSetAck | retuneDue | awaitingRetune | hearing | commitDue | getDue | awaitingGet
  | confirmed | abandonDue | cooldown | readbackDue
  deriving DecidableEq, Repr

def maxPhyFleet : Nat := 8

-- The arrays with one slot for each node are functions of the slot. The statistics are left out.
structure PhyChange where
  phase : PhyPhase := .idle
  from_ : PhyGroup := fun _ => 0
  to_ : PhyGroup := fun _ => 0
  fleet : List NodeId := []
  index : Nat := 0
  seq : Seq := 0
  firstGetSeq : Seq := 0
  getAttempts : UInt8 := 0
  sentMs : UInt32 := 0
  haveFirstAck : Bool := false
  firstAckMs : UInt32 := 0
  ackMs : Nat → UInt32 := fun _ => 0
  lastOpenMs : UInt32 := 0
  retuned : Bool := false
  retunedMs : UInt32 := 0
  heard : Nat → Bool := fun _ => false
  polledMs : Nat → UInt32 := fun _ => 0
  polled : Nat → Bool := fun _ => false
  reason : PhyReason := .none
  culprit : NodeId := 0
  readbackOwed : Bool := false
  confirm : List ConfigAckEntry := []
  ackTimeoutMs : UInt32 := 8000

namespace PhyChange

def nfleet (m : PhyChange) : Nat := m.fleet.length

def node (m : PhyChange) (i : Nat) : NodeId := m.fleet.getD i 0

def setAckTimeoutMs (m : PhyChange) (ms : UInt32) : PhyChange := {m with ackTimeoutMs := ms}

def trialMs (m : PhyChange) : UInt32 := (m.to_ phyTrialS).toUInt32 * 1000

-- The trial window counts from the first node's CONFIG_ACK, less one ACK timeout for each node.
def deadlinePassed (m : PhyChange) (nowMs : UInt32) : Bool :=
  m.haveFirstAck && decide ((m.trialMs.toNat : Int) - (m.nfleet : Int) * (m.ackTimeoutMs.toNat : Int) ≤ elapsed nowMs m.firstAckMs)

def start (m : PhyChange) (from_ to_ : PhyGroup) (fleet : List NodeId) (nowMs : UInt32) : Bool × PhyChange :=
  if m.phase ≠ .idle ∨ fleet.length = 0 ∨ maxPhyFleet < fleet.length ∨ (∀ i, from_ i = to_ i) then (false,m)
  else (true,{
    ackTimeoutMs := m.ackTimeoutMs
    from_ := from_
    to_ := to_
    fleet := fleet
    sentMs := nowMs
    phase := .setDue})

def abandon (m : PhyChange) (reason : PhyReason) (culprit : NodeId) : PhyChange :=
  {m with reason := reason,culprit := culprit,phase := .abandonDue}

def nextGet (m : PhyChange) : PhyChange :=
  {m with index := m.index + 1,getAttempts := 0,phase := if m.index + 1 < m.nfleet then .getDue else .idle}

-- The phases that look at no clock. The source's `next` calls itself only after it has moved to one of them.
def settle (m : PhyChange) : PhyStep × PhyChange :=
  match m.phase with
  | .commitDue => ({action := .commit,group := m.to_},{m with index := 0,getAttempts := 0,phase := .getDue})
  | .getDue => ({action := .sendGet,dst := m.node m.index},m)
  | .abandonDue =>
      ({action := .abandon,group := m.from_,reason := m.reason,culprit := m.culprit,retuned := m.retuned},{m with phase := .cooldown})
  | .readbackDue => ({action := .readback,dst := m.culprit},{m with phase := .idle})
  | _ => ({},m)

def unheard (m : PhyChange) : Option Nat := (List.range m.nfleet).find? fun i => !m.heard i

-- A POLL to this node is still within its answer time.
def pollOut (m : PhyChange) (nowMs : UInt32) (i : Nat) : Bool :=
  m.polled i && decide (elapsed nowMs (m.polledMs i) < (m.ackTimeoutMs.toNat : Int))

-- In turn from the node after the last one polled.
def pollTurn (m : PhyChange) : List Nat :=
  let first := if (List.range m.nfleet).any m.polled then m.index + 1 else 0
  (List.range m.nfleet).map fun k => (first + k) % m.nfleet

def nextPoll (m : PhyChange) (nowMs : UInt32) : PhyStep × PhyChange :=
  if (List.range m.nfleet).any fun i => !m.heard i && m.pollOut nowMs i then ({},m)
  else match m.pollTurn.find? fun i => !m.heard i && !m.pollOut nowMs i with
    | some i => ({action := .sendPoll,dst := m.node i},{m with index := i})
    | none => ({},m)

def next (m : PhyChange) (nowMs : UInt32) : PhyStep × PhyChange :=
  match m.phase with
  | .setDue =>
      if m.deadlinePassed nowMs then (m.abandon .notAccepted (m.node m.index)).settle
      else ({action := .sendSet,dst := m.node m.index,group := m.to_},m)
  | .awaitingSetAck =>
      -- The node may have retuned and lost only its answer: its window counts from the send.
      if (m.ackTimeoutMs.toNat : Int) ≤ elapsed nowMs m.sentMs then
        ({m with readbackOwed := true,lastOpenMs := m.sentMs}.abandon .notAccepted (m.node m.index)).settle
      else if m.deadlinePassed nowMs then ({m with lastOpenMs := m.sentMs}.abandon .notAccepted (m.node m.index)).settle
      else ({},m)
  | .retuneDue => ({action := .retune,group := m.to_},{m with retuned := true,phase := .awaitingRetune})
  | .awaitingRetune =>
      if m.deadlinePassed nowMs then (m.abandon .notHeard (m.node (m.unheard.getD 0))).settle else ({},m)
  | .hearing =>
      match m.unheard with
      | none => {m with phase := .commitDue}.settle
      | some i => if m.deadlinePassed nowMs then (m.abandon .notHeard (m.node i)).settle else m.nextPoll nowMs
  | .awaitingGet =>
      if elapsed nowMs m.sentMs < (m.ackTimeoutMs.toNat : Int) then ({},m)
      else if (m.trialMs.toNat : Int) ≤ elapsed nowMs (m.ackMs m.index) then m.nextGet.settle
      else {m with phase := .getDue}.settle
  | .confirmed => ({action := .nodeConfirmed,dst := m.node m.index,results := m.confirm},m.nextGet)
  | .cooldown =>
      if elapsed nowMs m.lastOpenMs < (m.trialMs.toNat : Int) then ({},m)
      else {m with phase := if m.readbackOwed then .readbackDue else .idle}.settle
  | .idle | .commitDue | .getDue | .abandonDue | .readbackDue => m.settle

def onSent (m : PhyChange) (seq : Seq) (nowMs : UInt32) : PhyChange :=
  match m.phase with
  | .setDue => {m with seq := seq,sentMs := nowMs,phase := .awaitingSetAck}
  | .getDue =>
      {m with
        firstGetSeq := if m.getAttempts = 0 then seq else m.firstGetSeq
        getAttempts := m.getAttempts + 1
        seq := seq
        sentMs := nowMs
        phase := .awaitingGet}
  | .hearing => {m with polled := Function.update m.polled m.index true,polledMs := Function.update m.polledMs m.index nowMs}
  | _ => m

def onAired (m : PhyChange) (airedMs : UInt32) : PhyChange :=
  match m.phase with
  | .awaitingSetAck | .awaitingGet => {m with sentMs := airedMs}
  | .hearing => if m.polled m.index then {m with polledMs := Function.update m.polledMs m.index airedMs} else m
  | _ => m

-- No GET has gone to the first node yet.
def TakesBack (m : PhyChange) : Prop := m.phase = .getDue ∧ m.index = 0 ∧ m.getAttempts = 0

instance takesBackDecidable (m : PhyChange) : Decidable m.TakesBack := inferInstanceAs (Decidable (_ ∧ _ ∧ _))

def commitFailed (m : PhyChange) : PhyChange := if m.TakesBack then m.abandon .commitFailed 0 else m

def onRetuned (m : PhyChange) (nowMs : UInt32) : PhyChange :=
  if m.phase ≠ .awaitingRetune then m else {m with retunedMs := nowMs,phase := .hearing}

def onHeard (m : PhyChange) (src : NodeId) (rxMs : UInt32) : PhyChange :=
  if m.phase ≠ .hearing ∨ elapsed rxMs m.retunedMs < 0 then m
  else {m with heard := fun i => m.heard i || (decide (i < m.nfleet) && m.node i == src)}

-- One row of the answer against the value sent. persist_status is not read.
def entryHolds (to_ : PhyGroup) (k : Fin phyGroupSize) (e : ConfigAckEntry) : Bool :=
  e.status == ParamStatus.ok.code && e.len != 0 && entrySigned e.value e.len e.ptype == to_ k

def accepts (to_ : PhyGroup) (ack : NodeConfigAckV1) : Bool :=
  (ack.entries.all fun e => match phyIndexOf e.paramId with
    | none => true
    | some k => entryHolds to_ k e) &&
  (List.finRange phyGroupSize).all fun k => ack.entries.any fun e => phyIndexOf e.paramId == some k

def onSetAck (m : PhyChange) (src : NodeId) (ack : NodeConfigAckV1) (nowMs : UInt32) : PhyChange :=
  let m := {m with ackMs := Function.update m.ackMs m.index nowMs,lastOpenMs := nowMs}
  if !accepts m.to_ ack then m.abandon .notAccepted src
  else {m with
    haveFirstAck := true
    firstAckMs := if m.haveFirstAck then m.firstAckMs else nowMs
    index := m.index + 1
    phase := if m.index + 1 < m.nfleet then .setDue else .retuneDue}

-- An answer to any GET sent to this node, not only the last, confirms it.
def onConfigAck (m : PhyChange) (src : NodeId) (ack : NodeConfigAckV1) (ackSeq : Seq) (nowMs : UInt32) : Bool × PhyChange :=
  match m.phase with
  | .awaitingSetAck => if src ≠ m.node m.index ∨ ackSeq ≠ m.seq then (false,m) else (true,m.onSetAck src ack nowMs)
  | .awaitingGet | .getDue =>
      if src ≠ m.node m.index ∨ m.getAttempts = 0 ∨ m.seq - m.firstGetSeq < m.seq - ackSeq then (false,m)
      else (true,{m with confirm := ack.entries.take maxConfigAckEntries,phase := .confirmed})
  | _ => (false,m)

-- A change given up within the same call.
def gone (m : PhyChange) (reason : PhyReason) (culprit : NodeId) : PhyStep × PhyChange :=
  ({action := .abandon,group := m.from_,reason := reason,culprit := culprit,retuned := m.retuned},
    {m with reason := reason,culprit := culprit,phase := .cooldown})

section
variable {m : PhyChange} (nowMs : UInt32)

theorem next_idle (phase : m.phase = .idle) : m.next nowMs = ({},m) := by
  simp only [next,settle,phase]

theorem next_setDue (phase : m.phase = .setDue) : m.next nowMs =
    if m.deadlinePassed nowMs then m.gone .notAccepted (m.node m.index)
    else ({action := .sendSet,dst := m.node m.index,group := m.to_},m) := by
  simp only [next,phase]
  rfl

theorem next_awaitingSetAck (phase : m.phase = .awaitingSetAck) : m.next nowMs =
    if (m.ackTimeoutMs.toNat : Int) ≤ elapsed nowMs m.sentMs then
      {m with readbackOwed := true,lastOpenMs := m.sentMs}.gone .notAccepted (m.node m.index)
    else if m.deadlinePassed nowMs then {m with lastOpenMs := m.sentMs}.gone .notAccepted (m.node m.index)
    else ({},m) := by
  simp only [next,phase]
  rfl

theorem next_retuneDue (phase : m.phase = .retuneDue) : m.next nowMs =
    ({action := .retune,group := m.to_},{m with retuned := true,phase := .awaitingRetune}) := by
  simp only [next,phase]

theorem next_awaitingRetune (phase : m.phase = .awaitingRetune) : m.next nowMs =
    if m.deadlinePassed nowMs then m.gone .notHeard (m.node (m.unheard.getD 0)) else ({},m) := by
  simp only [next,phase]
  rfl

-- The commit the last node heard leads to within the same call.
def committed (m : PhyChange) : PhyStep × PhyChange :=
  ({action := .commit,group := m.to_},{m with index := 0,getAttempts := 0,phase := .getDue})

theorem next_hearing_all (phase : m.phase = .hearing) (all : m.unheard = none) : m.next nowMs = m.committed := by
  simp only [next,phase,all]
  rfl

theorem next_hearing_some {i : Nat} (phase : m.phase = .hearing) (waits : m.unheard = some i) : m.next nowMs =
    if m.deadlinePassed nowMs then m.gone .notHeard (m.node i) else m.nextPoll nowMs := by
  simp only [next,phase,waits]
  rfl

theorem next_getDue (phase : m.phase = .getDue) : m.next nowMs = ({action := .sendGet,dst := m.node m.index},m) := by
  simp only [next,settle,phase]

theorem next_confirmed (phase : m.phase = .confirmed) : m.next nowMs =
    ({action := .nodeConfirmed,dst := m.node m.index,results := m.confirm},m.nextGet) := by
  simp only [next,phase]

theorem next_abandonDue (phase : m.phase = .abandonDue) : m.next nowMs = m.gone m.reason m.culprit := by
  simp only [next,settle,phase]
  rfl

-- The wait for a GET's answer ends in another GET, in one to the next node, or with the last node.
theorem next_awaitingGet (phase : m.phase = .awaitingGet) :
    m.next nowMs = ({},m) ∨ (∃ dst, m.next nowMs = ({action := .sendGet,dst := dst},{m with phase := .getDue})) ∨
      (∃ dst, m.next nowMs = ({action := .sendGet,dst := dst},{m with index := m.index + 1,getAttempts := 0,phase := .getDue})) ∨
      m.next nowMs = ({},{m with index := m.index + 1,getAttempts := 0,phase := .idle}) := by
  simp only [next,phase,nextGet]
  split
  · exact .inl rfl
  · split
    · split
      · exact .inr (.inr (.inl ⟨_,rfl⟩))
      · exact .inr (.inr (.inr rfl))
    · exact .inr (.inl ⟨_,rfl⟩)

theorem next_cooldown (phase : m.phase = .cooldown) :
    m.next nowMs = ({},m) ∨ ((m.trialMs.toNat : Int) ≤ elapsed nowMs m.lastOpenMs ∧
      ∃ step, (step.action = .none ∨ step.action = .readback) ∧ m.next nowMs = (step,{m with phase := .idle})) := by
  simp only [next,phase]
  split
  · exact .inl rfl
  · next passed =>
    refine .inr ⟨Int.not_lt.mp passed,?_⟩
    cases m.readbackOwed with
    | true => exact ⟨_,.inr rfl,rfl⟩
    | false => exact ⟨_,.inl rfl,rfl⟩

theorem nextPoll_cases (m : PhyChange) :
    ∃ i step, m.nextPoll nowMs = (step,{m with index := i}) ∧ (step.action = .none ∨ step.action = .sendPoll) := by
  unfold nextPoll
  split
  · exact ⟨m.index,{},rfl,.inl rfl⟩
  · split
    · next i _ => exact ⟨i,_,rfl,.inr rfl⟩
    · exact ⟨m.index,{},rfl,.inl rfl⟩

theorem unheard_none (all : m.unheard = none) (i : Nat) (inside : i < m.nfleet) : m.heard i = true := by
  have quiet := List.find?_eq_none.mp all i (List.mem_range.mpr inside)
  simpa using quiet

theorem deadline_acked (passed : m.deadlinePassed nowMs = true) : m.haveFirstAck = true := by
  rw [deadlinePassed,Bool.and_eq_true] at passed
  exact passed.1

-- Where a commit, a GET and an abandon can come from, and what an abandon says of the retune.
def Telling (m : PhyChange) (step : PhyStep) : Prop :=
  (step.action = .commit → m.phase = .hearing ∧ m.unheard = none) ∧
    (step.action = .sendGet → m.phase = .getDue ∨ m.phase = .awaitingGet) ∧ (step.action = .abandon → step.retuned = m.retuned)

theorem telling_quiet {step : PhyStep} (uncommitted : step.action ≠ .commit) (unasked : step.action ≠ .sendGet) (kept : step.action ≠ .abandon) :
    Telling m step := ⟨fun is => absurd is uncommitted,fun is => absurd is unasked,fun is => absurd is kept⟩

theorem telling_gone (n : PhyChange) (reason : PhyReason) (culprit : NodeId) (same : n.retuned = m.retuned) :
    Telling m (n.gone reason culprit).1 := ⟨(fun is => by cases is),(fun is => by cases is),fun _ => same⟩

theorem next_telling (rests : m.phase ≠ .commitDue) : Telling m (m.next nowMs).1 := by
  cases phase : m.phase with
  | commitDue => exact absurd phase rests
  | idle =>
      rw [next_idle nowMs phase]
      exact telling_quiet (by simp) (by simp) (by simp)
  | setDue =>
      rw [next_setDue nowMs phase]
      split
      · exact telling_gone m _ _ rfl
      · exact telling_quiet (by simp) (by simp) (by simp)
  | awaitingSetAck =>
      rw [next_awaitingSetAck nowMs phase]
      split
      · exact telling_gone _ _ _ rfl
      · split
        · exact telling_gone _ _ _ rfl
        · exact telling_quiet (by simp) (by simp) (by simp)
  | retuneDue =>
      rw [next_retuneDue nowMs phase]
      exact telling_quiet (by simp) (by simp) (by simp)
  | awaitingRetune =>
      rw [next_awaitingRetune nowMs phase]
      split
      · exact telling_gone m _ _ rfl
      · exact telling_quiet (by simp) (by simp) (by simp)
  | hearing =>
      cases waits : m.unheard with
      | none =>
          rw [next_hearing_all nowMs phase waits]
          exact ⟨fun _ => ⟨phase,waits⟩,(fun is => by cases is),(fun is => by cases is)⟩
      | some i =>
          rw [next_hearing_some nowMs phase waits]
          split
          · exact telling_gone m _ _ rfl
          · obtain ⟨j,step,polls,kind⟩ := nextPoll_cases nowMs m
            rw [polls]
            refine telling_quiet ?_ ?_ ?_ <;> rcases kind with is | is <;> rw [is] <;> decide
  | getDue =>
      rw [next_getDue nowMs phase]
      exact ⟨(fun is => by cases is),fun _ => .inl phase,(fun is => by cases is)⟩
  | awaitingGet =>
      rcases next_awaitingGet nowMs phase with answer | ⟨_,answer⟩ | ⟨_,answer⟩ | answer <;> rw [answer]
      all_goals exact ⟨(fun is => by cases is),fun _ => .inr phase,(fun is => by cases is)⟩
  | confirmed =>
      rw [next_confirmed nowMs phase]
      exact telling_quiet (by simp) (by simp) (by simp)
  | abandonDue =>
      rw [next_abandonDue nowMs phase]
      exact telling_gone m _ _ rfl
  | cooldown =>
      rcases next_cooldown nowMs phase with answer | ⟨-,step,kind,answer⟩ <;> rw [answer]
      · exact telling_quiet (by simp) (by simp) (by simp)
      · refine telling_quiet ?_ ?_ ?_ <;> rcases kind with is | is <;> rw [is] <;> decide
  | readbackDue =>
      simp only [next,settle,phase]
      exact telling_quiet (by simp) (by simp) (by simp)

end

end PhyChange

end LoraRan.Bridge
