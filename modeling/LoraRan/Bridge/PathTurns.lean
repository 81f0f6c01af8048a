import LoraRan.Bridge.Tasks
import LoraRan.Library.StepSystem

namespace LoraRan.Bridge
open Protocol Library.StepSystem

-- What each machine can do to its own turn.

theorem ContextRoll.next_busy (r : ContextRoll) (nowMs : UInt32)
    (moves : (r.next nowMs).2.busy = true ∨ (r.next nowMs).1.action = .send) : r.busy = true := by
  rcases r.next_cases nowMs with is | ⟨attempt,from_,is⟩ | ⟨awaits,is⟩ | ⟨resolved,is⟩
  · rw [is] at moves
    exact moves.elim id fun sends => (by cases sends)
  · rcases from_ with ⟨due,_⟩ | ⟨awaits,_⟩
    · rw [ContextRoll.busy,due]
      rfl
    · rw [ContextRoll.busy,awaits]
      rfl
  · rw [ContextRoll.busy,awaits]
    rfl
  · rw [ContextRoll.busy,resolved]
    rfl

theorem ContextRoll.onAck_busy (r : ContextRoll) (src : NodeId) (ack : CommandAck) (ackCtx : CtxId) (nowMs : UInt32)
    (busy : (r.onAck src ack ackCtx nowMs).2.busy = true) : r.busy = true := by
  rcases r.onAck_cases src ack ackCtx nowMs with ⟨_,is⟩ | ⟨mine,_⟩ | ⟨mine,_⟩ | ⟨mine,_⟩
  · rw [is] at busy
    exact busy
  all_goals
    rw [ContextRoll.busy,mine.1]
    rfl

theorem ContextRoll.onSent_busy (p : ContextRoll) (nowMs : UInt32) (busy : (p.onSent nowMs).busy = true) : p.busy = true := by
  unfold ContextRoll.onSent at busy
  split at busy
  case isTrue => exact busy
  case isFalse due =>
    rw [ContextRoll.busy,not_not.mp due]
    rfl

theorem ContextRoll.onAired_busy (p : ContextRoll) (airedMs : UInt32) (busy : (p.onAired airedMs).busy = true) : p.busy = true := by
  unfold ContextRoll.onAired at busy
  split at busy
  case isTrue => exact busy
  case isFalse => exact busy

theorem ContextRoll.onHeard_busy (r : ContextRoll) (id : NodeId) (busy : (r.onHeard id).busy = true) : r.busy = true := by
  unfold ContextRoll.onHeard at busy
  split at busy
  · exact busy
  · split at busy
    · exact busy
    · exact busy

theorem CommandPath.next_busy (p : CommandPath) (nowMs : UInt32)
    (moves : (p.next nowMs).2.busy = true ∨ (p.next nowMs).1.action = .send) : p.busy = true := by
  rcases p.next_cases nowMs with is | ⟨attempt,from_,is⟩ | ⟨awaits,is⟩ | ⟨resolved,is⟩
  · rw [is] at moves
    exact moves.elim id fun sends => (by cases sends)
  · rcases from_ with ⟨due,_⟩ | ⟨awaits,_⟩
    · rw [CommandPath.busy,due]
      rfl
    · rw [CommandPath.busy,awaits]
      rfl
  · rw [CommandPath.busy,awaits]
    rfl
  · rw [CommandPath.busy,resolved]
    rfl

theorem CommandPath.onSent_busy (p : CommandPath) (nowMs : UInt32) (busy : (p.onSent nowMs).busy = true) : p.busy = true := by
  unfold CommandPath.onSent at busy
  split at busy
  case isTrue => exact busy
  case isFalse due =>
    rw [CommandPath.busy,not_not.mp due]
    rfl

theorem CommandPath.onAired_busy (p : CommandPath) (airedMs : UInt32) (busy : (p.onAired airedMs).busy = true) : p.busy = true := by
  unfold CommandPath.onAired at busy
  split at busy
  case isTrue => exact busy
  case isFalse => exact busy

theorem CommandPath.onAck_busy (p : CommandPath) (src : NodeId) (ack : CommandAck) (ackCtx : CtxId) (nowMs : UInt32)
    (busy : (p.onAck src ack ackCtx nowMs).busy = true) : p.busy = true := by
  rcases p.onAck_cases src ack ackCtx nowMs with ⟨_,is⟩ | ⟨mine,_⟩ | ⟨mine,_⟩ | ⟨mine,_⟩ | ⟨mine,_⟩
  · rw [is] at busy
    exact busy
  all_goals
    rw [CommandPath.busy,mine.1]
    rfl

theorem HexProxy.next_busy (p : HexProxy) (nowMs : UInt32) (armed : Bool)
    (moves : (p.next nowMs armed).2.busy = true ∨ (p.next nowMs armed).1.action = .send) : p.busy = true := by
  rcases p.next_cases nowMs armed with is | ⟨attempt,from_,is⟩ | ⟨outcome,_,from_,is⟩ | ⟨resolved,is⟩
  · rw [is] at moves
    exact moves.elim id fun sends => (by cases sends)
  · rcases from_ with ⟨due,_⟩ | ⟨awaits,_⟩
    · rw [HexProxy.busy,due]
      rfl
    · rw [HexProxy.busy,awaits]
      rfl
  · rcases from_ with due | awaits
    · rw [HexProxy.busy,due]
      rfl
    · rw [HexProxy.busy,awaits]
      rfl
  · rw [HexProxy.busy,resolved]
    rfl

theorem HexProxy.onSent_busy (p : HexProxy) (nowMs : UInt32) (busy : (p.onSent nowMs).busy = true) : p.busy = true := by
  unfold HexProxy.onSent at busy
  split at busy
  case isTrue => exact busy
  case isFalse due =>
    rw [HexProxy.busy,not_not.mp due]
    rfl

theorem HexProxy.onAired_busy (p : HexProxy) (airedMs : UInt32) (busy : (p.onAired airedMs).busy = true) : p.busy = true := by
  unfold HexProxy.onAired at busy
  split at busy
  case isTrue => exact busy
  case isFalse => exact busy

theorem HexProxy.onAck_busy (p : HexProxy) (src : NodeId) (ack : CommandAck) (ackCtx : CtxId) (nowMs : UInt32)
    (busy : (p.onAck src ack ackCtx nowMs).2.busy = true) : p.busy = true := by
  rcases p.onAck_cases src ack ackCtx nowMs with ⟨_,is⟩ | ⟨mine,_⟩ | ⟨mine,_⟩ | ⟨mine,_⟩
  · rw [is] at busy
    exact busy
  all_goals
    rw [HexProxy.busy,mine.1]
    rfl

theorem HexProxy.onRsp_busy (p : HexProxy) (src : NodeId) (seq : Seq) (rsp : HexRsp) (busy : (p.onRsp src seq rsp).2.busy = true) :
    p.busy = true := by
  rcases p.onRsp_cases src seq rsp with is | ⟨awaits,_⟩
  · rw [is] at busy
    exact busy
  · rw [HexProxy.busy,awaits]
    rfl

theorem ContextRoll.next_pending (r : ContextRoll) (nowMs : UInt32) : (r.next nowMs).2.pending = r.pending := by
  rcases r.next_cases nowMs with is | ⟨attempt,_,is⟩ | ⟨_,is⟩ | ⟨_,is⟩
  · rw [is]
  · rw [is]
  · rw [is]
    rfl
  · rw [is]

theorem ContextRoll.onSent_pending (r : ContextRoll) (nowMs : UInt32) : (r.onSent nowMs).pending = r.pending := by
  unfold ContextRoll.onSent
  split
  · rfl
  · rfl

theorem ContextRoll.onHeard_pending (r : ContextRoll) (id : NodeId) : (r.onHeard id).pending = r.pending := by
  unfold ContextRoll.onHeard
  split
  · rfl
  · split
    · rfl
    · rfl

theorem ContextRoll.onAired_pending (r : ContextRoll) (airedMs : UInt32) : (r.onAired airedMs).pending = r.pending := by
  unfold ContextRoll.onAired
  split
  · rfl
  · rfl

theorem ContextRoll.submit_pending (r : ContextRoll) (id : NodeId) (ctx : CtxId) (seq : Seq) (nowMs : UInt32) :
    (r.submit id ctx seq nowMs).2.pending = r.pending := by
  unfold ContextRoll.submit
  split
  · rfl
  · rfl

-- Only an answer makes a node's roll done.
theorem ContextRoll.onAck_pending (r : ContextRoll) (src : NodeId) (ack : CommandAck) (ackCtx : CtxId) (nowMs : UInt32) (id : NodeId)
    (pending : (r.onAck src ack ackCtx nowMs).2.pending id = true) : r.pending id = true := by
  rcases r.onAck_cases src ack ackCtx nowMs with ⟨_,is⟩ | ⟨_,_,is⟩ | ⟨_,is⟩ | ⟨_,result,is⟩
  · rw [is] at pending
    exact pending
  · rw [is] at pending
    change Function.update r.pending r.dst false id = true at pending
    by_cases same : id = r.dst
    · rw [same,Function.update_self] at pending
      cases pending
    · rw [Function.update_of_ne same] at pending
      exact pending
  · rw [is] at pending
    exact pending
  · rw [is] at pending
    exact pending

-- The configuration path: an exchange of the bridge's own, told from a readback that began with an answer nobody asked for.

def ConfigPath.own (p : ConfigPath) : Bool := p.phase != .idle && !p.unsolicited

-- A readback nobody asked for takes what comes and sends nothing.
def ConfigPath.Silent (p : ConfigPath) : Prop := p.unsolicited = true → p.phase = .idle ∨ p.phase = .awaitingReadback ∨ p.phase = .resolved

-- A move that begins no exchange of the bridge's own.
structure ConfigPath.Goes (p q : ConfigPath) : Prop where
  own : q.own = true → p.own = true
  silent : p.Silent → q.Silent

namespace ConfigPath

theorem Goes.trans {p q r : ConfigPath} (first : p.Goes q) (second : q.Goes r) : p.Goes r :=
  ⟨fun own => first.own (second.own own),fun silent => second.silent (first.silent silent)⟩

theorem goes_same {p q : ConfigPath} (phase : q.phase = p.phase) (unsolicited : q.unsolicited = p.unsolicited) : p.Goes q := by
  constructor
  · unfold own
    rw [phase,unsolicited]
    exact id
  · unfold Silent
    rw [phase,unsolicited]
    exact id

theorem next_goes (p : ConfigPath) (nowMs : UInt32) : p.Goes (p.next nowMs).2 := by
  unfold next
  split
  case h_1 => exact goes_same rfl rfl
  case h_2 => exact goes_same rfl rfl
  case h_3 phase =>
    split
    · exact ⟨by simp [own,phase],by simp [Silent,phase]⟩
    · exact goes_same rfl rfl
  case h_4 => exact goes_same rfl rfl
  case h_5 phase =>
    split
    · exact ⟨by simp [own],by simp [Silent]⟩
    · exact goes_same rfl rfl
  case h_6 => exact ⟨by simp [own],by simp [Silent]⟩

theorem next_sends (p : ConfigPath) (nowMs : UInt32) (silent : p.Silent)
    (sends : (p.next nowMs).1.action = .sendConfig ∨ (p.next nowMs).1.action = .requestReadback) : p.own = true := by
  have asked (due : p.phase = .sendDue ∨ p.phase = .readbackDue) : p.own = true := by
    unfold own
    cases unasked : p.unsolicited with
    | true =>
        have rests := silent unasked
        rcases due with phase | phase <;> simp [phase] at rests
    | false => rcases due with phase | phase <;> simp [phase]
  unfold next at sends
  split at sends
  case h_1 => simp [blankStep] at sends
  case h_2 phase => exact asked (.inl phase)
  case h_3 => split at sends <;> simp [blankStep] at sends
  case h_4 phase => exact asked (.inr phase)
  case h_5 => split at sends <;> simp [blankStep] at sends
  case h_6 => simp at sends

theorem onSent_goes (p : ConfigPath) (nowMs : UInt32) : p.Goes (p.onSent nowMs) := by
  unfold onSent
  dsimp only
  split
  case isTrue phase => exact ⟨by simp [own,phase],by simp [Silent,phase]⟩
  case isFalse =>
    split
    case isTrue phase => exact ⟨by simp [own,phase],by simp [Silent,phase]⟩
    case isFalse => exact goes_same rfl rfl

theorem onAired_goes (p : ConfigPath) (airedMs : UInt32) : p.Goes (p.onAired airedMs) := by
  unfold onAired
  split
  · exact goes_same rfl rfl
  · exact goes_same rfl rfl

theorem begin_goes (p : ConfigPath) (src : NodeId) (nowMs : UInt32) : p.Goes (p.begin_ src nowMs) :=
  ⟨by simp [own,begin_],by simp [Silent,begin_]⟩

theorem takeMessage_goes (p : ConfigPath) (ack : NodeConfigAckV1) (nowMs : UInt32)
    (waits : p.phase = .awaitingAck ∨ p.phase = .awaitingReadback) : p.Goes (p.takeMessage ack nowMs) := by
  obtain ⟨first,⟨_,is⟩ | ⟨_,_,is⟩ | ⟨_,_,is⟩⟩ := p.takeMessage_cases ack nowMs
  · rw [is]
    exact goes_same rfl rfl
  · rw [is]
    exact goes_same rfl rfl
  · rw [is]
    refine ⟨?_,by simp [Silent]⟩
    rcases waits with phase | phase <;> simp [own,phase]

theorem onConfigAck_goes (p : ConfigPath) (src : NodeId) (ack : NodeConfigAckV1) (ackSeq : Seq) (nowMs : UInt32) :
    p.Goes (p.onConfigAck src ack ackSeq nowMs) := by
  unfold onConfigAck
  have opened : p.Goes (if p.phase = .idle ∧ BeginsWalk ack then p.begin_ src nowMs else p) := by
    split
    · exact p.begin_goes src nowMs
    · exact goes_same rfl rfl
  generalize (if p.phase = .idle ∧ BeginsWalk ack then p.begin_ src nowMs else p) = q at opened
  dsimp only
  split
  case isTrue takes => exact opened.trans (q.takeMessage_goes ack nowMs (takes.2.imp And.left id))
  case isFalse => exact opened

-- An idle path takes the job for its own, a busy one refuses it.
theorem submit_cases (p : ConfigPath) (job : ConfigJob) (ctx : CtxId) (seq : Seq) (nowMs : UInt32) :
    (p.phase ≠ .idle ∧ p.submit job ctx seq nowMs = (false,p)) ∨
      (p.phase = .idle ∧ (p.submit job ctx seq nowMs).1 = true ∧ (p.submit job ctx seq nowMs).2.unsolicited = false) := by
  unfold submit
  split
  case isTrue busy => exact .inl ⟨busy,rfl⟩
  case isFalse free => exact .inr ⟨not_not.mp free,rfl,rfl⟩

end ConfigPath

-- The fleet's PHY change.

namespace PhyChange
variable {m n : PhyChange}

-- A move within one change: the fleet stays, whoever it is given up for is one of it, and it takes no turn it did not have.
structure Within (m n : PhyChange) : Prop where
  fleet : n.fleet = m.fleet
  culprit : n.culprit = m.culprit ∨ ∃ i, n.culprit = m.node i
  blocks : n.blocksTraffic = true → m.blocksTraffic = true

-- A SET or a GET is due, or was when it was asked for.
def Asking (m : PhyChange) : Prop := m.phase = .setDue ∨ m.phase = .getDue ∨ m.phase = .confirmed

theorem Asking.blocks (asking : m.Asking) : m.blocksTraffic = true := by
  rcases asking with phase | phase | phase <;> simp [blocksTraffic,phase]

theorem asking_same (phase : n.phase = m.phase) (asking : m.Asking) : n.Asking := by
  unfold Asking
  rw [phase]
  exact asking

theorem within_same (fleet : n.fleet = m.fleet) (culprit : n.culprit = m.culprit) (phase : n.phase = m.phase) : Within m n := by
  refine ⟨fleet,.inl culprit,?_⟩
  simp only [blocksTraffic,phase]
  exact id

-- Out of a phase that has the air, or into one that has not.
theorem within_phase (fleet : n.fleet = m.fleet) (culprit : n.culprit = m.culprit) (blocks : n.blocksTraffic = true → m.blocksTraffic = true) :
    Within m n := ⟨fleet,.inl culprit,blocks⟩

theorem within_gone (i : Nat) (fleet : n.fleet = m.fleet) (culprit : n.culprit = m.node i) (phase : n.phase = .cooldown ∨ n.phase = .abandonDue) :
    Within m n := by
  refine ⟨fleet,.inr ⟨i,culprit⟩,fun blocks => ?_⟩
  rcases phase with is | is <;> simp [blocksTraffic,is] at blocks

theorem Within.trans {k : PhyChange} (first : Within m n) (second : Within n k) : Within m k := by
  refine ⟨second.fleet.trans first.fleet,?_,fun blocks => first.blocks (second.blocks blocks)⟩
  rcases second.culprit with same | ⟨i,is⟩
  · rw [same]
    exact first.culprit
  · exact .inr ⟨i,by rw [is,node,node,first.fleet]⟩

theorem node_past (m : PhyChange) : m.node m.nfleet = 0 := by simp [node,nfleet]

-- What a step of the machine names.
structure Names (m : PhyChange) (st : PhyStep) (n : PhyChange) : Prop where
  asks : st.action = .sendSet ∨ st.action = .sendGet → n.Asking ∧ ∃ i, st.dst = m.node i
  polls : st.action = .sendPoll → m.blocksTraffic = true
  readback : st.action = .readback → st.dst = m.culprit

theorem names_quiet {st : PhyStep} (quiet : st.action = .none ∨ st.action = .retune ∨ st.action = .commit ∨ st.action = .nodeConfirmed ∨
    st.action = .abandon) : Names m st n := by
  constructor <;> intro is <;> rcases quiet with other | other | other | other | other <;> simp [other] at is

theorem names_asks {st : PhyStep} (i : Nat) (asking : n.Asking) (dst : st.dst = m.node i) (kind : st.action = .sendSet ∨ st.action = .sendGet) :
    Names m st n := by
  refine ⟨fun _ => ⟨asking,i,dst⟩,fun is => ?_,fun is => ?_⟩ <;> rcases kind with other | other <;> simp [other] at is

theorem next_moves (m : PhyChange) (nowMs : UInt32) : Within m (m.next nowMs).2 ∧ Names m (m.next nowMs).1 (m.next nowMs).2 := by
  have given (n : PhyChange) (i : Nat) (reason : PhyReason) (fleet : n.fleet = m.fleet) :
      Within m (n.gone reason (m.node i)).2 ∧ Names m (n.gone reason (m.node i)).1 (n.gone reason (m.node i)).2 :=
    ⟨within_gone i fleet rfl (.inl rfl),names_quiet (.inr (.inr (.inr (.inr rfl))))⟩
  cases phase : m.phase with
  | idle =>
      rw [next_idle nowMs phase]
      exact ⟨within_same rfl rfl rfl,names_quiet (.inl rfl)⟩
  | setDue =>
      rw [next_setDue nowMs phase]
      split
      · exact given m m.index _ rfl
      · exact ⟨within_same rfl rfl rfl,names_asks m.index (.inl phase) rfl (.inl rfl)⟩
  | awaitingSetAck =>
      rw [next_awaitingSetAck nowMs phase]
      split
      · exact given {m with readbackOwed := true,lastOpenMs := m.sentMs} m.index _ rfl
      · split
        · exact given {m with lastOpenMs := m.sentMs} m.index _ rfl
        · exact ⟨within_same rfl rfl rfl,names_quiet (.inl rfl)⟩
  | retuneDue =>
      rw [next_retuneDue nowMs phase]
      exact ⟨within_phase rfl rfl (by simp [blocksTraffic,phase]),names_quiet (.inr (.inl rfl))⟩
  | awaitingRetune =>
      rw [next_awaitingRetune nowMs phase]
      split
      · exact given m _ _ rfl
      · exact ⟨within_same rfl rfl rfl,names_quiet (.inl rfl)⟩
  | hearing =>
      have has : m.blocksTraffic = true := by simp [blocksTraffic,phase]
      cases waits : m.unheard with
      | none =>
          rw [next_hearing_all nowMs phase waits]
          exact ⟨within_phase rfl rfl fun _ => has,names_quiet (.inr (.inr (.inl rfl)))⟩
      | some i =>
          rw [next_hearing_some nowMs phase waits]
          split
          · exact given m i _ rfl
          · obtain ⟨j,step,polls,kind⟩ := nextPoll_cases nowMs m
            rw [polls]
            refine ⟨within_same rfl rfl rfl,fun is => ?_,fun _ => has,fun is => ?_⟩ <;> rcases kind with other | other <;> simp [other] at is
  | commitDue =>
      have settles : m.next nowMs = m.committed := by
        simp only [next,settle,phase]
        rfl
      rw [settles]
      exact ⟨within_phase rfl rfl fun _ => by simp [blocksTraffic,phase],names_quiet (.inr (.inr (.inl rfl)))⟩
  | getDue =>
      rw [next_getDue nowMs phase]
      exact ⟨within_same rfl rfl rfl,names_asks m.index (.inr (.inl phase)) rfl (.inr rfl)⟩
  | awaitingGet =>
      have has : m.blocksTraffic = true := by simp [blocksTraffic,phase]
      simp only [next,phase,nextGet]
      split
      · exact ⟨within_same rfl rfl rfl,names_quiet (.inl rfl)⟩
      · split
        · split
          · exact ⟨within_phase rfl rfl fun _ => has,names_asks (m.index + 1) (.inr (.inl rfl)) rfl (.inr rfl)⟩
          · exact ⟨within_phase rfl rfl fun _ => has,names_quiet (.inl rfl)⟩
        · exact ⟨within_phase rfl rfl fun _ => has,names_asks m.index (.inr (.inl rfl)) rfl (.inr rfl)⟩
  | confirmed =>
      rw [next_confirmed nowMs phase]
      exact ⟨within_phase rfl rfl fun _ => by simp [blocksTraffic,phase],names_quiet (.inr (.inr (.inr (.inl rfl))))⟩
  | abandonDue =>
      rw [next_abandonDue nowMs phase]
      exact ⟨within_phase rfl rfl fun blocks => by simp [gone,blocksTraffic] at blocks,names_quiet (.inr (.inr (.inr (.inr rfl))))⟩
  | cooldown =>
      simp only [next,phase]
      split
      · exact ⟨within_same rfl rfl rfl,names_quiet (.inl rfl)⟩
      · cases m.readbackOwed with
        | true => exact ⟨within_phase rfl rfl fun blocks => (by cases blocks),(fun is => by simp [settle] at is),(fun is => by cases is),fun _ => rfl⟩
        | false => exact ⟨within_phase rfl rfl fun blocks => (by cases blocks),names_quiet (.inl rfl)⟩
  | readbackDue =>
      simp only [next,settle,phase]
      exact ⟨within_phase rfl rfl fun blocks => (by cases blocks),(fun is => by simp at is),(fun is => by cases is),fun _ => rfl⟩

theorem onSent_within (m : PhyChange) (seq : Seq) (nowMs : UInt32) : Within m (m.onSent seq nowMs) := by
  unfold onSent
  split
  case h_1 phase => exact within_phase rfl rfl fun _ => by simp [blocksTraffic,phase]
  case h_2 phase => exact within_phase rfl rfl fun _ => by simp [blocksTraffic,phase]
  case h_3 => exact within_same rfl rfl rfl
  case h_4 => exact within_same rfl rfl rfl

theorem onAired_same (m : PhyChange) (airedMs : UInt32) :
    (m.onAired airedMs).fleet = m.fleet ∧ (m.onAired airedMs).culprit = m.culprit ∧ (m.onAired airedMs).phase = m.phase := by
  unfold onAired
  split
  · exact ⟨rfl,rfl,rfl⟩
  · exact ⟨rfl,rfl,rfl⟩
  · split
    · exact ⟨rfl,rfl,rfl⟩
    · exact ⟨rfl,rfl,rfl⟩
  · exact ⟨rfl,rfl,rfl⟩

theorem onHeard_same (m : PhyChange) (src : NodeId) (rxMs : UInt32) :
    (m.onHeard src rxMs).fleet = m.fleet ∧ (m.onHeard src rxMs).culprit = m.culprit ∧ (m.onHeard src rxMs).phase = m.phase := by
  unfold onHeard
  split
  · exact ⟨rfl,rfl,rfl⟩
  · exact ⟨rfl,rfl,rfl⟩

theorem onHeard_within (m : PhyChange) (src : NodeId) (rxMs : UInt32) : Within m (m.onHeard src rxMs) := by
  obtain ⟨fleet,culprit,phase⟩ := m.onHeard_same src rxMs
  exact within_same fleet culprit phase

theorem commitFailed_within (m : PhyChange) : Within m m.commitFailed := by
  unfold commitFailed
  split
  · exact within_gone m.nfleet rfl m.node_past.symm (.inr rfl)
  · exact within_same rfl rfl rfl

-- What app_task and the radio do to a change leaves a SET or GET that is being admitted its turn.
theorem onRetuned_within (m : PhyChange) (nowMs : UInt32) : Within m (m.onRetuned nowMs) ∧ (m.Asking → (m.onRetuned nowMs).Asking) := by
  unfold onRetuned
  split
  case isTrue => exact ⟨within_same rfl rfl rfl,id⟩
  case isFalse there =>
    have phase : m.phase = .awaitingRetune := not_not.mp there
    refine ⟨within_phase rfl rfl fun _ => by simp [blocksTraffic,phase],fun asking => ?_⟩
    rcases asking with is | is | is <;> simp [phase] at is

theorem onConfigAck_within (m : PhyChange) (src : NodeId) (ack : NodeConfigAckV1) (seq : Seq) (nowMs : UInt32) :
    Within m (m.onConfigAck src ack seq nowMs).2 ∧ (m.Asking → (m.onConfigAck src ack seq nowMs).2.Asking) := by
  unfold onConfigAck
  split
  case h_1 phase =>
    have unasked : ¬ m.Asking := by
      rintro (is | is | is) <;> simp [phase] at is
    have has : m.blocksTraffic = true := by simp [blocksTraffic,phase]
    refine ⟨?_,fun asking => absurd asking unasked⟩
    split
    case isTrue => exact within_same rfl rfl rfl
    case isFalse mine =>
      have named : src = m.node m.index := not_not.mp (not_or.mp mine).1
      unfold onSetAck
      dsimp only
      split
      · exact within_gone m.index rfl named (.inr rfl)
      · exact within_phase rfl rfl fun _ => has
  case h_2 phase =>
    split
    · exact ⟨within_same rfl rfl rfl,id⟩
    · exact ⟨within_phase rfl rfl fun _ => by simp [blocksTraffic,phase],fun _ => .inr (.inr rfl)⟩
  case h_3 phase =>
    split
    · exact ⟨within_same rfl rfl rfl,id⟩
    · exact ⟨within_phase rfl rfl fun _ => by simp [blocksTraffic,phase],fun _ => .inr (.inr rfl)⟩
  case h_4 => exact ⟨within_same rfl rfl rfl,id⟩

-- A change starts where none is under way, across the fleet it is given.
theorem start_cases (m : PhyChange) (from_ to_ : PhyGroup) (fleet : List NodeId) (nowMs : UInt32) :
    m.start from_ to_ fleet nowMs = (false,m) ∨
      ((m.start from_ to_ fleet nowMs).2.fleet = fleet ∧ (m.start from_ to_ fleet nowMs).2.culprit = 0 ∧ m.blocksTraffic = false) := by
  unfold start
  split
  case isTrue => exact .inl rfl
  case isFalse free =>
    have phase : m.phase = .idle := not_not.mp (not_or.mp free).1
    exact .inr ⟨rfl,rfl,by simp [blocksTraffic,phase]⟩

end PhyChange

end LoraRan.Bridge
