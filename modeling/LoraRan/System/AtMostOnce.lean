import LoraRan.Library.ReplayWindow
import LoraRan.System.CommandLink

namespace LoraRan.System.AtMostOnce
open Protocol Node Bridge CommandLink Library.StepSystem Library.Serial
open Library.ReplayWindow (Window Sound)

section
variable {σ : Type} (mac : Mac) (ops : Application σ) (keys : NodeId → NodeKey) (listen : DecodeCtx)

-- Distinct submissions are given distinct pairs, a reboot draws a context the node never used, and no context sees its
-- sequence space advance by a whole turn.
def Assumed (s : Link σ) : Input σ → Prop
  | .submit _ ctx seq _ => s.path.phase = .idle → ∀ g ∈ s.given, (g.ctx,g.seq) ≠ (ctx,seq)
  | .reboot random _ _ => (newCtxId random 0).1 ∉ s.used
  | .deliver i random nowMs => (step mac ops keys listen s (.deliver i random nowMs)).travelled < 65536
  | _ => True

-- A roll, too, draws a context the node never used.
def FreshRoll (s : Link σ) (i : Input σ) : Prop :=
  (step mac ops keys listen s i).node.ctx.ctxId = s.node.ctx.ctxId ∨ (step mac ops keys listen s i).node.ctx.ctxId ∉ s.used

def pair (e : Mark) : CtxId × Seq := (e.ctx,e.seq)

-- The node's gate as a replay window.
def window (s : Link σ) : Window CtxId := ⟨s.node.ctx.ctxId,s.node.ctx.gate.highWater,s.travelled,s.used,s.executed.map pair⟩

structure Once (s : Link σ) : Prop where
  wired : Wired mac keys s
  fixed : s.InFlight → ∀ g, s.given[s.current]? = some g → resyncMayRetry g.req.cmd = false → s.path.ctx = g.ctx ∧ s.path.seq = g.seq
  carried : ∀ frame ∈ s.sent, ∀ k g, frame.2.submission = some k → s.given[k]? = some g → resyncMayRetry g.req.cmd = false →
    pair frame.2 = (g.ctx,g.seq)
  ran : ∀ e ∈ s.executed, ∃ frame ∈ s.sent, frame.2 = e
  window : Sound (window s)

variable {mac ops keys listen}

theorem moves_window (s : Link σ) (mark : Mark) (n : Engine σ) (moves : s.Moves mac mark n)
    (bounded : (s.after mark n).travelled < 65536) (fresh : n.ctx.ctxId = s.node.ctx.ctxId ∨ n.ctx.ctxId ∉ s.used) :
    Library.ReplayWindow.Moves (window s) (window (s.after mark n)) := by
  obtain ⟨P,core,made,cause,effect⟩ := moves
  have runs := executes_made effect
  have sameCtx : n.ctx.ctxId = core.ctxId := congrArg Core.ctxId effect.core
  have sameGate : n.ctx.gate = core.gate := congrArg Core.gate effect.core
  have grown : s.used ⊆ n.ctx.ctxId :: s.used := List.subset_cons_self _ _
  have travelled : n.ctx.ctxId = s.node.ctx.ctxId →
      (s.after mark n).travelled = s.travelled + advance n.ctx.gate.highWater s.node.ctx.gate.highWater := by
    intro stays
    simp [Link.after,stays]
  rcases cause.travel with ⟨none,stays,still⟩ | ⟨none,leaves,zero⟩ | ⟨few,stays,hereMark,ahead,reached⟩
  · have moved : window (s.after mark n) = {window s with used := n.ctx.ctxId :: s.used} := by
      simp [window,Link.after,runs,none,sameCtx,stays,sameGate,still,advance]
    rw [moved]
    exact .stay _ grown
  · have left : n.ctx.ctxId ≠ s.node.ctx.ctxId := sameCtx ▸ leaves
    have moved : window (s.after mark n) = ⟨n.ctx.ctxId,0,0,n.ctx.ctxId :: s.used,s.executed.map pair⟩ := by
      simp [window,Link.after,runs,none,left,sameGate,zero]
    rw [moved]
    exact .enter _ _ (fresh.resolve_left left) grown List.mem_cons_self
  · have stayed : n.ctx.ctxId = s.node.ctx.ctxId := sameCtx.trans stays
    have along := travelled stayed
    rw [sameGate,reached] at along
    have one : made.countP isExecute = 0 ∨ made.countP isExecute = 1 := by omega
    have moved : window (s.after mark n) = ⟨s.node.ctx.ctxId,mark.seq,s.travelled + advance mark.seq s.node.ctx.gate.highWater,
        n.ctx.ctxId :: s.used,if made.countP isExecute = 1 then pair mark :: s.executed.map pair else s.executed.map pair⟩ := by
      rcases one with zero | once
      · simp [window,Link.after,runs,zero,stayed,sameGate,reached]
      · simp [window,Link.after,runs,once,stayed,sameGate,reached]
    rw [moved]
    have acted : pair mark = (s.node.ctx.ctxId,mark.seq) := Prod.ext hereMark rfl
    rw [acted]
    have passes := Library.ReplayWindow.Moves.pass (w := window s) mark.seq (n.ctx.ctxId :: s.used) (decide (made.countP isExecute = 1)) ahead
      (along ▸ bounded) grown
    simpa [window] using passes

theorem moves_once (s : Link σ) (mark : Mark) (n : Engine σ) (valid : Once mac keys s) (moves : s.Moves mac mark n)
    (sent : 0 < executes n - executes s.node → ∃ frame ∈ s.sent, frame.2 = mark)
    (bounded : (s.after mark n).travelled < 65536) (fresh : n.ctx.ctxId = s.node.ctx.ctxId ∨ n.ctx.ctxId ∉ s.used) :
    Once mac keys (s.after mark n) := by
  refine ⟨moves_wired s mark n valid.wired moves,valid.fixed,valid.carried,?_,(moves_window s mark n moves bounded fresh).sound valid.window⟩
  intro e member
  rcases List.mem_append.mp member with new | old
  · obtain ⟨some,rfl⟩ := List.mem_replicate.mp new
    exact sent (Nat.pos_of_ne_zero some)
  · exact valid.ran e old

theorem rests_once (s : Link σ) (mark : Mark) (n : Engine σ) (valid : Once mac keys s) (rests : s.Rests mac mark n) :
    Once mac keys (s.after mark n) := by
  have moves := Rests.moves rests
  obtain ⟨P,core,rest,effect⟩ := rests
  obtain ⟨_,sameCtx,sameMark⟩ := rest.kept
  have stays : n.ctx.ctxId = s.node.ctx.ctxId := (congrArg Core.ctxId effect.core).trans sameCtx
  have still : n.ctx.gate.highWater = s.node.ctx.gate.highWater := (congrArg (fun c => c.gate.highWater) effect.core).trans sameMark
  have runs := executes_made effect
  refine moves_once s mark n valid moves ?_ ?_ (.inl stays)
  · intro ran
    rw [runs] at ran
    cases ran
  · have bound := s.node.ctx.gate.highWater.toNat_lt
    rw [show s.node.ctx.gate.highWater.toNat = s.travelled from valid.window.position] at bound
    simpa [Link.after,stays,still,advance] using bound

theorem submit_once (s : Link σ) (req : CommandRequest) (ctx : CtxId) (seq : Seq) (nowMs : UInt32) (valid : Once mac keys s) :
    Once mac keys (step mac ops keys listen s (.submit req ctx seq nowMs)) := by
  have wired : Wired mac keys (step mac ops keys listen s (.submit req ctx seq nowMs)) := step_wired s _ valid.wired
  by_cases idle : s.path.phase = .idle
  · simp only [step,CommandPath.submit,idle,ne_eq,not_true_eq_false,if_false] at wired ⊢
    refine ⟨wired,?_,?_,valid.ran,valid.window⟩
    · intro _ g here _
      simp only [Link.current,List.length_append,List.length_singleton,Nat.add_sub_cancel,List.getElem?_concat_length,Option.some.injEq] at here
      rw [← here]
      exact ⟨rfl,rfl⟩
    · intro frame member k g numbered here refused
      -- A frame on the air belongs to a submission that was there before.
      obtain ⟨_,_,cmd,carries,_⟩ := valid.wired.sent frame member
      simp only [Link.Carries,numbered] at carries
      obtain ⟨old,before,_⟩ := carries
      rw [List.getElem?_append_left (List.getElem?_eq_some_iff.mp before).1] at here
      exact valid.carried frame member k g numbered here refused
  · simp only [step,CommandPath.submit,ne_eq,idle,not_false_eq_true,if_true]
    exact valid

theorem turn_once (s : Link σ) (nowMs : UInt32) (queued : Bool) (ver : UInt8) (valid : Once mac keys s) :
    Once mac keys (s.turn mac keys nowMs queued ver) := by
  have wired := turn_wired s nowMs queued ver valid.wired
  rcases turn_cases mac keys s nowMs queued ver with same | ⟨attempt,due,moved⟩ | ⟨attempt,bytes,due,built,moved⟩ | ⟨_,moved⟩ | ⟨_,moved⟩
  · rw [same]
    exact valid
  · rw [moved] at wired ⊢
    exact ⟨wired,fun _ => valid.fixed (due_inFlight due),valid.carried,valid.ran,valid.window⟩
  · rw [moved] at wired ⊢
    refine ⟨wired,fun _ => valid.fixed (due_inFlight due),?_,?_,valid.window⟩
    · intro frame member k g numbered here refused
      rcases List.mem_append.mp member with old | new
      · exact valid.carried frame old k g numbered here refused
      · obtain rfl := List.mem_singleton.mp new
        cases numbered
        obtain ⟨sameCtx,sameSeq⟩ := valid.fixed (due_inFlight due) g here refused
        exact Prod.ext sameCtx sameSeq
    · intro e member
      obtain ⟨frame,old,same⟩ := valid.ran e member
      exact ⟨frame,List.mem_append_left _ old,same⟩
  · rw [moved] at wired ⊢
    exact ⟨wired,by rintro (sendDue | awaiting) <;> contradiction,valid.carried,valid.ran,valid.window⟩
  · rw [moved] at wired ⊢
    exact ⟨wired,by rintro (sendDue | awaiting) <;> contradiction,valid.carried,valid.ran,valid.window⟩

-- Only a command that may be resent after a REJECTED_CTX changes its pair.
theorem onAck_fixed (s : Link σ) (src : NodeId) (ack : CommandAck) (ctx : CtxId) (nowMs : UInt32) (refused : resyncMayRetry s.path.req.cmd = false)
    (flight : (s.path.onAck src ack ctx nowMs).phase = .sendDue ∨ (s.path.onAck src ack ctx nowMs).phase = .awaiting) :
    s.path.onAck src ack ctx nowMs = s.path := by
  rcases s.path.onAck_cases src ack ctx nowMs with ⟨_,same⟩ | ⟨_,_,_,retry,_⟩ | ⟨_,_,_,_,moved⟩ | ⟨_,_,_,moved⟩ | ⟨_,_,moved⟩
  · exact same
  · rw [refused] at retry
    cases retry
  all_goals
    rw [moved] at flight
    rcases flight with sendDue | awaiting <;> contradiction

theorem hear_once (s : Link σ) (frame : Bytes × Mark) (nowMs : UInt32) (valid : Once mac keys s) : Once mac keys (s.hear listen frame nowMs) := by
  have wired : Wired mac keys (s.hear listen frame nowMs) := hear_wired s frame nowMs valid.wired
  unfold Link.hear at wired ⊢
  split at wired
  · exact valid
  · rename_i src ack ctx _
    refine ⟨wired,?_,valid.carried,valid.ran,valid.window⟩
    intro flight g here refused
    have awaited : s.InFlight := by
      rcases onAck_flight s src ack ctx nowMs with same | ⟨awaiting,_⟩
      · simp only [Link.InFlight,same] at flight
        exact flight
      · exact .inr awaiting
    obtain ⟨g',here',same⟩ := valid.wired.flight awaited
    obtain rfl : g' = g := Option.some.inj (here'.symm.trans here)
    have kept := onAck_fixed s src ack ctx nowMs (same ▸ refused) flight
    change (s.path.onAck src ack ctx nowMs).ctx = _ ∧ (s.path.onAck src ack ctx nowMs).seq = _
    rw [kept]
    exact valid.fixed awaited g' here refused

theorem step_once (s : Link σ) (i : Input σ) (valid : Once mac keys s) (assumed : Assumed mac ops keys listen s i)
    (fresh : FreshRoll mac ops keys listen s i) : Once mac keys (step mac ops keys listen s i) := by
  have wired : Wired mac keys (step mac ops keys listen s i) := step_wired s i valid.wired
  cases i with
  | submit req ctx seq nowMs => exact submit_once s req ctx seq nowMs valid
  | tick nowMs queued ver => exact turn_once s nowMs queued ver valid
  | aired airedMs =>
      refine ⟨wired,?_,valid.carried,valid.ran,valid.window⟩
      simp only [step,CommandPath.onAired] at wired ⊢
      split
      · exact valid.fixed
      · exact valid.fixed
  | setParams ackTimeoutMs retries =>
      exact ⟨wired,valid.fixed,valid.carried,valid.ran,valid.window⟩
  | sendRoll dst ctx seq ver =>
      simp only [step] at wired ⊢
      split at wired
      · exact valid
      · refine ⟨wired,valid.fixed,?_,?_,valid.window⟩
        · intro frame member k g numbered here refused
          rcases List.mem_append.mp member with old | new
          · exact valid.carried frame old k g numbered here refused
          · obtain rfl := List.mem_singleton.mp new
            cases numbered
        · intro e member
          obtain ⟨frame,old,same⟩ := valid.ran e member
          exact ⟨frame,List.mem_append_left _ old,same⟩
  | deliver i random nowMs =>
      simp only [step,Assumed,FreshRoll] at assumed fresh ⊢
      split at fresh
      · exact valid
      · rename_i bytes mark here
        have member := List.mem_of_getElem? here
        rw [here] at assumed
        exact moves_once s mark _ valid (deliver_moves s (bytes,mark) random nowMs valid.wired member) (fun _ => ⟨_,member,rfl⟩) assumed fresh
  | finish nowMs => exact rests_once s _ _ valid (finish_rests s nowMs)
  | finishWith nowMs result => exact rests_once s _ _ valid (finishWith_rests s nowMs result)
  | tune tunings => exact rests_once s _ _ valid (tune_rests s _ tunings)
  | own input => exact rests_once s _ _ valid (own_rests s _ input)
  | reboot random phy app =>
      refine ⟨wired,valid.fixed,valid.carried,valid.ran,?_⟩
      have enters : Library.ReplayWindow.Moves (window s) (window (step mac ops keys listen s (.reboot random phy app))) :=
        .enter _ _ assumed (List.subset_cons_self _ _) List.mem_cons_self
      exact enters.sound valid.window
  | transmit => exact ⟨wired,valid.fixed,valid.carried,valid.ran,valid.window⟩
  | hear i nowMs =>
      simp only [step]
      split
      · exact valid
      · exact hear_once s _ nowMs valid

theorem start_once (id : NodeId) (ver : UInt8) (random : RandomFn) (phy : PhyTrial) (app : σ) : Once mac keys (start keys id ver random phy app) := by
  refine ⟨start_wired id ver random phy app,by rintro (sendDue | awaiting) <;> contradiction,by simp [start],by simp [start],?_⟩
  exact ⟨rfl,List.mem_singleton.mpr rfl,by simp [window,start],by simp [window,start],by simp [window,start]⟩

variable (mac ops keys listen)

-- However the network loses, repeats, delays and reorders, a submission whose command moves something or restarts the node
-- is executed at most once.
theorem actuation_at_most_once (id : NodeId) (ver : UInt8) (random : RandomFn) (phy : PhyTrial) (app : σ) (s : Link σ)
    (run : Reached (step mac ops keys listen) (fun s i => Assumed mac ops keys listen s i ∧ FreshRoll mac ops keys listen s i)
      (start keys id ver random phy app) s)
    (k : Nat) (g : Given) (submitted : s.given[k]? = some g) (actuates : g.req.cmd ≤ 0x0F ∨ g.req.cmd = cmdReboot) :
    (s.executed.filter fun e => e.submission = some k).length ≤ 1 := by
  have valid : Once mac keys s := run.invariant (Once mac keys) (start_once id ver random phy app)
    fun s i valid allowed => step_once s i valid allowed.1 allowed.2
  have fixed : resyncMayRetry g.req.cmd = false := by
    rcases actuates with low | reboot
    · simp [resyncMayRetry,low]
    · rw [reboot]
      decide
  -- All its executions carry the one pair it was given, and no pair ran twice.
  have pairs : ∀ e ∈ s.executed.filter (fun e => e.submission = some k), pair e = (g.ctx,g.seq) := by
    intro e member
    obtain ⟨ran,numbered⟩ := List.mem_filter.mp member
    obtain ⟨frame,sent,rfl⟩ := valid.ran e ran
    exact valid.carried frame sent k g (of_decide_eq_true numbered) submitted fixed
  have distinct : ((s.executed.filter fun e => e.submission = some k).map pair).Nodup :=
    (List.filter_sublist.map pair).nodup valid.window.once
  rw [List.eq_replicate_iff.mpr ⟨List.length_map _,fun p member => by
    obtain ⟨e,inside,rfl⟩ := List.mem_map.mp member
    exact pairs e inside⟩] at distinct
  exact List.nodup_replicate.mp distinct

instance (s : Link σ) : (i : Input σ) → Decidable (Assumed mac ops keys listen s i)
  | .submit _ ctx seq _ => inferInstanceAs (Decidable (s.path.phase = .idle → ∀ g ∈ s.given, (g.ctx,g.seq) ≠ (ctx,seq)))
  | .reboot random _ _ => inferInstanceAs (Decidable ((newCtxId random 0).1 ∉ s.used))
  | .deliver i random nowMs => inferInstanceAs (Decidable ((step mac ops keys listen s (.deliver i random nowMs)).travelled < 65536))
  | .tick .. | .aired _ | .setParams .. | .sendRoll .. | .finish _ | .finishWith .. | .tune _ | .own _ | .transmit | .hear .. => .isTrue trivial

instance (s : Link σ) (i : Input σ) : Decidable (FreshRoll mac ops keys listen s i) := inferInstanceAs (Decidable (_ ∨ _))

end

-- OPEN, sent twice for want of an ACK, both copies delivered.
def retried : List (Input Unit) :=
  [.submit openGate 10 1 0,.tick 0 true protoVer,.tick 4000 true protoVer,.deliver 1 (fun _ => 0) 5000,.deliver 0 (fun _ => 0) 6000]

theorem actuation_at_most_once_retried :
    let s := retried.foldl (step lengthMac obedient (fun _ => zeroKey) {}) gate
    s.sent.length = 2 ∧ s.executed.length = 1 ∧ (s.executed.filter fun e => e.submission = some 0).length ≤ 1 := by
  have permitted : Follows (step lengthMac obedient (fun _ => zeroKey) {})
      (fun s i => Assumed lengthMac obedient (fun _ => zeroKey) {} s i ∧ FreshRoll lengthMac obedient (fun _ => zeroKey) {} s i) gate retried := by
    decide +kernel
  refine ⟨by decide +kernel,by decide +kernel,?_⟩
  exact actuation_at_most_once lengthMac obedient _ _ nodeGateLink protoVer (fun _ => 10) {} () _ permitted.reached 0 ⟨openGate,10,1⟩
    (by decide +kernel) (.inl (by decide))

-- OPEN runs in context 10; two rolls lead through 20 and back to 10; a late copy of the frame runs again.
def rolledBack : List (Input Unit) :=
  [.submit openGate 10 1 0,.tick 0 true protoVer,.deliver 0 (fun _ => 0) 0,
    .sendRoll nodeGateLink 10 2 protoVer,.deliver 1 (fun _ => 20) 1,
    .sendRoll nodeGateLink 20 1 protoVer,.deliver 2 (fun _ => 10) 2,.deliver 0 (fun _ => 0) 3]

theorem roll_into_an_old_context_executes_again :
    ¬ ∀ s, Reached (step lengthMac obedient (fun _ => zeroKey) {}) (Assumed lengthMac obedient (fun _ => zeroKey) {}) gate s →
      ∀ k g, s.given[k]? = some g → g.req.cmd ≤ 0x0F ∨ g.req.cmd = cmdReboot →
        (s.executed.filter fun e => e.submission = some k).length ≤ 1 := by
  intro always
  have permitted : Follows (step lengthMac obedient (fun _ => zeroKey) {}) (Assumed lengthMac obedient (fun _ => zeroKey) {}) gate rolledBack := by
    decide +kernel
  have once := always _ permitted.reached 0 ⟨openGate,10,1⟩ (by decide +kernel) (.inl (by decide))
  exact absurd once (by decide +kernel)

end LoraRan.System.AtMostOnce
