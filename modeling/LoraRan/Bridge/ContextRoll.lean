import LoraRan.Bridge.CommandPath

namespace LoraRan.Bridge
open Protocol

inductive RollOutcome where
  | pending | rolled | failed
  deriving DecidableEq, Repr

structure RollStep where
  action : CmdAction := .none
  dst : NodeId := 0
  seq : Seq := 0
  ctxId : CtxId := 0
  attempt : UInt8 := 0
  outcome : RollOutcome := .pending
  noAck : Bool := false
  result : UInt8 := 0
  deriving DecidableEq

-- The masks as sets of addresses: a bit for each row of the node table. The statistics are left out.
structure ContextRoll where
  pending : NodeId → Bool := registered
  due : NodeId → Bool := fun _ => false
  phase : Phase := .idle
  dst : NodeId := 0
  ctx : CtxId := 0
  seq : Seq := 0
  attempt : UInt8 := 0
  windowOpenedMs : UInt32 := 0
  outcome : RollOutcome := .pending
  noAck : Bool := false
  result : UInt8 := 0
  ackTimeoutMs : UInt32 := commandAckTimeoutDefaultMs
  retries : UInt8 := commandRetriesDefault

def ContextRoll.busy (r : ContextRoll) : Bool := r.phase != .idle

-- The ACK that answers a roll must not make its node due again.
def ContextRoll.onHeard (r : ContextRoll) (id : NodeId) : ContextRoll :=
  if !r.pending id then r
  else if r.busy ∧ r.dst = id then r
  else {r with due := Function.update r.due id true}

def ContextRoll.nextDue (r : ContextRoll) : Option NodeId := nodeTable.find? fun id => r.due id && r.pending id

def ContextRoll.submit (r : ContextRoll) (id : NodeId) (ctx : CtxId) (seq : Seq) (nowMs : UInt32) : Bool × ContextRoll :=
  if r.busy ∨ !r.pending id ∨ ctx = 0 then (false,r)
  else (true,{r with
    due := Function.update r.due id false
    dst := id
    ctx := ctx
    seq := seq
    attempt := 0
    outcome := .pending
    noAck := false
    result := 0
    windowOpenedMs := nowMs
    phase := .sendDue})

def ContextRoll.resolveRolled (r : ContextRoll) (ctx : CtxId) : ContextRoll :=
  {r with
    pending := Function.update r.pending r.dst false
    due := Function.update r.due r.dst false
    ctx := ctx
    outcome := .rolled
    phase := .resolved}

-- Still pending and no longer due: rolled again when the node is next heard.
def ContextRoll.resolveFailed (r : ContextRoll) (noAck : Bool) (result : UInt8) : ContextRoll :=
  {r with outcome := .failed,noAck := noAck,result := result,phase := .resolved}

def ContextRoll.sendStep (r : ContextRoll) : RollStep where
  action := .send
  dst := r.dst
  seq := r.seq
  ctxId := r.ctx
  attempt := r.attempt

def ContextRoll.resolveStep (r : ContextRoll) : RollStep where
  action := .resolve
  dst := r.dst
  seq := r.seq
  ctxId := r.ctx
  attempt := r.attempt
  outcome := r.outcome
  noAck := r.noAck
  result := r.result

def ContextRoll.window (r : ContextRoll) : UInt32 := r.ackTimeoutMs + (if r.attempt > 0 then commandRetryBackoffMs else 0)

def ContextRoll.next (r : ContextRoll) (nowMs : UInt32) : RollStep × ContextRoll :=
  match r.phase with
  | .idle => ({},r)
  | .sendDue => (r.sendStep,r)
  | .awaiting =>
      if windowOpen nowMs r.windowOpenedMs r.window then ({},r)
      else if r.attempt ≥ r.retries then
        let r := r.resolveFailed true 0
        (r.resolveStep,{r with phase := .idle})
      else
        let r := {r with attempt := r.attempt + 1,phase := .sendDue}
        (r.sendStep,r)
  | .resolved => (r.resolveStep,{r with phase := .idle})

def ContextRoll.onSent (r : ContextRoll) (nowMs : UInt32) : ContextRoll :=
  if r.phase ≠ .sendDue then r else {r with windowOpenedMs := nowMs,phase := .awaiting}

def ContextRoll.onAired (r : ContextRoll) (airedMs : UInt32) : ContextRoll :=
  if r.phase = .awaiting then {r with windowOpenedMs := airedMs} else r

-- The ACK answers the roll in flight: same node, same seq. Its context is not compared with the roll's.
def ContextRoll.Matches (r : ContextRoll) (src : NodeId) (ack : CommandAck) : Prop :=
  r.phase = .awaiting ∧ src = r.dst ∧ ack.ackSeq = r.seq

instance rollMatchesDecidable (r : ContextRoll) (src : NodeId) (ack : CommandAck) : Decidable (r.Matches src ack) :=
  inferInstanceAs (Decidable (_ ∧ _ ∧ _))

-- A REJECTED_CTX is taken for the answer to a retry that carried the old context.
def completesRoll (result : UInt8) : Bool := result == AckResult.accepted.code || result == AckResult.rejectedCtx.code

-- A busy node spends the attempt: the window opens again and the retry goes when it closes.
def ContextRoll.onAck (r : ContextRoll) (src : NodeId) (ack : CommandAck) (ackCtx : CtxId) (nowMs : UInt32) : Bool × ContextRoll :=
  if ¬ r.Matches src ack then (false,r)
  else if completesRoll ack.result then (true,r.resolveRolled ackCtx)
  else if ack.result = AckResult.actuatorBusy.code then (true,{r with windowOpenedMs := nowMs})
  else (true,r.resolveFailed false ack.result)

-- Everything next() can do.
theorem ContextRoll.next_cases (r : ContextRoll) (nowMs : UInt32) :
    r.next nowMs = ({},r) ∨
    (∃ attempt, (r.phase = .sendDue ∧ attempt = r.attempt ∨ r.phase = .awaiting ∧ attempt = r.attempt + 1) ∧
      r.next nowMs = (ContextRoll.sendStep {r with attempt := attempt,phase := .sendDue},{r with attempt := attempt,phase := .sendDue})) ∨
    (r.phase = .awaiting ∧ r.next nowMs = ((r.resolveFailed true 0).resolveStep,{r.resolveFailed true 0 with phase := .idle})) ∨
    (r.phase = .resolved ∧ r.next nowMs = (r.resolveStep,{r with phase := .idle})) := by
  rcases phased : r.phase with _ | _ | _ | _
  · exact .inl (by simp [ContextRoll.next,phased])
  · refine .inr (.inl ⟨r.attempt,.inl ⟨rfl,rfl⟩,?_⟩)
    have same : {r with phase := .sendDue} = r := by simp only [← phased]
    simp only [ContextRoll.next,phased,same]
  · simp only [ContextRoll.next,phased]
    split
    · exact .inl rfl
    · split
      · exact .inr (.inr (.inl ⟨trivial,rfl⟩))
      · exact .inr (.inl ⟨r.attempt + 1,.inr ⟨trivial,rfl⟩,rfl⟩)
  · exact .inr (.inr (.inr ⟨rfl,by simp [ContextRoll.next,phased]⟩))

theorem ContextRoll.onAck_cases (r : ContextRoll) (src : NodeId) (ack : CommandAck) (ackCtx : CtxId) (nowMs : UInt32) :
    (¬ r.Matches src ack ∧ r.onAck src ack ackCtx nowMs = (false,r)) ∨
    (r.Matches src ack ∧ completesRoll ack.result = true ∧ r.onAck src ack ackCtx nowMs = (true,r.resolveRolled ackCtx)) ∨
    (r.Matches src ack ∧ r.onAck src ack ackCtx nowMs = (true,{r with windowOpenedMs := nowMs})) ∨
    (r.Matches src ack ∧ ∃ result, r.onAck src ack ackCtx nowMs = (true,r.resolveFailed false result)) := by
  unfold ContextRoll.onAck
  by_cases mine : r.Matches src ack
  · rw [if_neg (not_not.mpr mine)]
    split
    · rename_i completes
      exact .inr (.inl ⟨mine,completes,rfl⟩)
    · split
      · exact .inr (.inr (.inl ⟨mine,rfl⟩))
      · exact .inr (.inr (.inr ⟨mine,_,rfl⟩))
  · rw [if_pos mine]
    exact .inl ⟨mine,rfl⟩

end LoraRan.Bridge
