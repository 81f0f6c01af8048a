import LoraRan.Config.Table
import LoraRan.Library.Clock

namespace LoraRan.Bridge
open Protocol Config Library.Clock

inductive AckPersist where
  | persisted | appliedNotPersisted | notApplied | unknown
  deriving DecidableEq, Repr

def ackPersistOf (status : UInt8) : AckPersist :=
  if status = PersistStatus.persisted.code then .persisted
  else if status = PersistStatus.appliedNotPersisted.code then .appliedNotPersisted
  else if status = PersistStatus.notApplied.code then .notApplied
  else .unknown

-- The part of a job the path reads; the names and the bridge's own half ride along for whoever publishes the answer.
structure ConfigJob where
  dst : NodeId := 0
  op : UInt8 := configOpSet
  config : NodeConfigV1 := {}
  readbackOnly : Bool := false
  deriving DecidableEq

inductive ConfigAction where
  | none | sendConfig | requestReadback | resolve
  deriving DecidableEq, Repr

inductive ConfigOutcome where
  | pending | acked | unknown | readbackOk | abandoned
  deriving DecidableEq, Repr

structure ConfigStep where
  action : ConfigAction := .none
  dst : NodeId := 0
  payload : NodeConfigV1 := {}
  seq : Seq := 0
  ctxId : CtxId := 0
  readbackOnly : Bool := false
  unsolicited : Bool := false
  outcome : ConfigOutcome := .pending
  op : UInt8 := configOpSet
  persist : AckPersist := .unknown
  results : List ConfigAckEntry := []
  updatesState : Bool := false

inductive ConfigPhase where
  | idle | sendDue | awaitingAck | readbackDue | awaitingReadback | resolved
  deriving DecidableEq, Repr

def maxStagedResults : Nat := 64

-- The staging area is the list of its first staged_count_ rows. The statistics are left out.
structure ConfigPath where
  job : ConfigJob := {}
  unsolicited : Bool := false
  phase : ConfigPhase := .idle
  seq : Seq := 0
  ctx : CtxId := 0
  windowOpenedMs : UInt32 := 0
  readbackFirstMs : UInt32 := 0
  messagesStaged : Nat := 0
  outcome : ConfigOutcome := .pending
  persist : AckPersist := .unknown
  staged : List ConfigAckEntry := []
  ackTimeoutMs : UInt32 := 8000
  readbackTimeoutMs : UInt32 := 15000

namespace ConfigPath

def submit (p : ConfigPath) (job : ConfigJob) (ctx : CtxId) (seq : Seq) (nowMs : UInt32) : Bool × ConfigPath :=
  if p.phase ≠ .idle then (false,p)
  else (true,{p with
    job := {job with op := if job.readbackOnly then configOpGetAll else job.op}
    unsolicited := false
    ctx := ctx
    seq := seq
    outcome := .pending
    persist := .unknown
    staged := []
    messagesStaged := 0
    readbackFirstMs := 0
    windowOpenedMs := nowMs
    phase := if job.readbackOnly then .readbackDue else .sendDue})

def blankStep (p : ConfigPath) : ConfigStep where
  dst := p.job.dst
  readbackOnly := p.job.readbackOnly
  unsolicited := p.unsolicited

def AckExpired (p : ConfigPath) (nowMs : UInt32) : Prop :=
  p.phase = .awaitingAck ∧ p.ackTimeoutMs.toInt32.toInt ≤ elapsed nowMs p.windowOpenedMs

instance ackExpiredDecidable (p : ConfigPath) (nowMs : UInt32) : Decidable (p.AckExpired nowMs) := inferInstanceAs (Decidable (_ ∧ _))

-- The clock of a readback runs from the first message of the answer, or from the request while there is none.
def ReadbackExpired (p : ConfigPath) (nowMs : UInt32) : Prop :=
  p.phase = .awaitingReadback ∧
    p.readbackTimeoutMs.toInt32.toInt ≤ elapsed nowMs (if p.readbackFirstMs ≠ 0 then p.readbackFirstMs else p.windowOpenedMs)

instance readbackExpiredDecidable (p : ConfigPath) (nowMs : UInt32) : Decidable (p.ReadbackExpired nowMs) :=
  inferInstanceAs (Decidable (_ ∧ _))

-- What the wait for a CONFIG's answer had staged stays staged when it gives up; an abandoned readback empties the area.
def next (p : ConfigPath) (nowMs : UInt32) : ConfigStep × ConfigPath :=
  match p.phase with
  | .idle => (p.blankStep,p)
  | .sendDue => ({p.blankStep with action := .sendConfig,payload := p.job.config,seq := p.seq,ctxId := p.ctx},p)
  | .awaitingAck =>
      if p.AckExpired nowMs then
        ({p.blankStep with action := .resolve,outcome := .unknown,op := p.job.op},
          {p with outcome := .unknown,persist := .unknown,phase := .readbackDue})
      else (p.blankStep,p)
  | .readbackDue => ({p.blankStep with action := .requestReadback},p)
  | .awaitingReadback =>
      if p.ReadbackExpired nowMs then
        ({p.blankStep with action := .resolve,outcome := .abandoned,op := configOpGetAll},
          {p with staged := [],messagesStaged := 0,outcome := .abandoned,phase := .idle})
      else (p.blankStep,p)
  | .resolved =>
      ({p.blankStep with
          action := .resolve
          outcome := p.outcome
          op := if p.outcome = .readbackOk then configOpGetAll else p.job.op
          persist := p.persist
          results := p.staged
          updatesState := decide (p.outcome = .readbackOk ∨ p.outcome = .acked)},
        {p with phase := .idle})

def onSent (p : ConfigPath) (nowMs : UInt32) : ConfigPath :=
  let p := {p with windowOpenedMs := nowMs}
  if p.phase = .sendDue then {p with phase := .awaitingAck}
  else if p.phase = .readbackDue then {p with readbackFirstMs := 0,phase := .awaitingReadback}
  else p

def onAired (p : ConfigPath) (airedMs : UInt32) : ConfigPath :=
  if p.phase = .awaitingAck ∨ p.phase = .awaitingReadback then {p with windowOpenedMs := airedMs} else p

-- A GET_ALL answer's first message: its rows start at the table's first.
def BeginsWalk (ack : NodeConfigAckV1) : Prop :=
  ack.op = configOpGetAll ∧ ∃ e ∈ ack.entries.head?, some e.paramId = (nodeCommonParams.head?.map ParamDef.id)

instance beginsWalkDecidable (ack : NodeConfigAckV1) : Decidable (BeginsWalk ack) := inferInstanceAs (Decidable (_ ∧ _))

-- An answer nobody asked for begins a readback of its own on an idle path.
def begin_ (p : ConfigPath) (src : NodeId) (nowMs : UInt32) : ConfigPath :=
  {p with
    job := {dst := src,op := configOpGetAll,readbackOnly := true}
    unsolicited := true
    outcome := .pending
    persist := .unknown
    staged := []
    messagesStaged := 0
    readbackFirstMs := nowMs
    windowOpenedMs := nowMs
    phase := .awaitingReadback}

-- A CONFIG's answer is known by its node and number, a readback by its node alone.
def Takes (p : ConfigPath) (src : NodeId) (ackSeq : Seq) : Prop :=
  src = p.job.dst ∧ ((p.phase = .awaitingAck ∧ ackSeq = p.seq) ∨ p.phase = .awaitingReadback)

instance takesDecidable (p : ConfigPath) (src : NodeId) (ackSeq : Seq) : Decidable (p.Takes src ackSeq) :=
  inferInstanceAs (Decidable (_ ∧ _))

def stage (p : ConfigPath) (ack : NodeConfigAckV1) : ConfigPath :=
  {p with staged := p.staged ++ ack.entries.take (maxStagedResults - p.staged.length)}

def finish (p : ConfigPath) (outcome : ConfigOutcome) : ConfigPath := {p with outcome := outcome,phase := .resolved}

def takeMessage (p : ConfigPath) (ack : NodeConfigAckV1) (nowMs : UInt32) : ConfigPath :=
  let p := if p.phase = .awaitingReadback ∧ p.readbackFirstMs = 0 then {p with readbackFirstMs := nowMs} else p
  if maxConfigAckMessages ≤ p.messagesStaged then p
  else
    let p : ConfigPath := {p.stage ack with messagesStaged := p.messagesStaged + 1,persist := ackPersistOf ack.persistStatus}
    if ack.moreFollows then {p with readbackFirstMs := if p.readbackFirstMs = 0 then nowMs else p.readbackFirstMs}
    else if p.phase = .awaitingAck then p.finish .acked
    else p.finish .readbackOk

def onConfigAck (p : ConfigPath) (src : NodeId) (ack : NodeConfigAckV1) (ackSeq : Seq) (nowMs : UInt32) : ConfigPath :=
  let p := if p.phase = .idle ∧ BeginsWalk ack then p.begin_ src nowMs else p
  if p.Takes src ackSeq then p.takeMessage ack nowMs else p

-- A message is dropped when the area has had its four, staged when it is marked, and closes the answer when it is not.
theorem takeMessage_cases (p : ConfigPath) (ack : NodeConfigAckV1) (nowMs : UInt32) :
    ∃ first,
      (maxConfigAckMessages ≤ p.messagesStaged ∧ p.takeMessage ack nowMs = {p with readbackFirstMs := first}) ∨
      (p.messagesStaged < maxConfigAckMessages ∧ ack.moreFollows = true ∧ p.takeMessage ack nowMs = {p with
        readbackFirstMs := first
        staged := p.staged ++ ack.entries.take (maxStagedResults - p.staged.length)
        messagesStaged := p.messagesStaged + 1
        persist := ackPersistOf ack.persistStatus}) ∨
      (p.messagesStaged < maxConfigAckMessages ∧ ack.moreFollows = false ∧ p.takeMessage ack nowMs = {p with
        readbackFirstMs := first
        staged := p.staged ++ ack.entries.take (maxStagedResults - p.staged.length)
        messagesStaged := p.messagesStaged + 1
        persist := ackPersistOf ack.persistStatus
        outcome := if p.phase = .awaitingAck then .acked else .readbackOk
        phase := .resolved}) := by
  let r := if p.phase = .awaitingReadback ∧ p.readbackFirstMs = 0 then nowMs else p.readbackFirstMs
  have opens : (if p.phase = .awaitingReadback ∧ p.readbackFirstMs = 0 then {p with readbackFirstMs := nowMs} else p) =
      {p with readbackFirstMs := r} := by
    simp only [r]
    split <;> rfl
  unfold takeMessage
  rw [opens]
  by_cases full : maxConfigAckMessages ≤ p.messagesStaged
  · exact ⟨r,.inl ⟨full,if_pos full⟩⟩
  · have room := Nat.lt_of_not_le full
    cases more : ack.moreFollows with
    | true =>
        refine ⟨if r = 0 then nowMs else r,.inr (.inl ⟨room,rfl,?_⟩)⟩
        simp only [if_neg full,if_true]
        rfl
    | false =>
        refine ⟨r,.inr (.inr ⟨room,rfl,?_⟩)⟩
        simp only [if_neg full,Bool.false_eq_true,if_false]
        by_cases asks : p.phase = .awaitingAck
        · rw [if_pos asks]
          exact if_pos asks
        · rw [if_neg asks]
          exact if_neg asks

end ConfigPath

end LoraRan.Bridge
