import LoraRan.System.CommandProgress

namespace LoraRan.System.OutcomeAgreement
open Protocol Node Bridge CommandLink CommandProgress Library.StepSystem

-- A result that says the command ran.
def Positive (result detail : UInt8) : Prop :=
  result = AckResult.accepted.code ∨ result = AckResult.duplicateCached.code ∧ detail = AckResult.accepted.code

section
variable {σ : Type} (mac : Mac) (ops : Application σ) (keys : NodeId → NodeKey) (listen : DecodeCtx)

-- Frames of different submissions carry different pairs.
def Distinct (s : Link σ) : Prop :=
  ∀ f ∈ s.sent, ∀ f' ∈ s.sent, f.2.submission ≠ none → f'.2.submission ≠ none → f.2.ctx = f'.2.ctx → f.2.seq = f'.2.seq →
    f.2.submission = f'.2.submission

-- A reboot draws a context the node never used, and the roll is the bridge's own: command_allowed() refuses it to every
-- other caller.
def Ordinary (s : Link σ) : Input σ → Prop
  | .submit req _ _ _ => req.cmd ≠ cmdRollContext
  | .reboot random _ _ => (newCtxId random 0).1 ∉ s.used
  | _ => True

def Assumed (s : Link σ) (i : Input σ) : Prop := Distinct (step mac ops keys listen s i) ∧ Ordinary s i

-- A frame the path takes for its answer, other than a REJECTED_CTX, carries the context of the exchange in flight and
-- answers no roll; and a roll that finds a command unfinished finds it in the gate as well.
def Unmistaken (s : Link σ) : Input σ → Prop
  | .hear i _ => ∀ frame ∈ s.air[i]?, ∀ heard ∈ ackHeard listen frame.1, s.path.Matches heard.1 heard.2.1 →
      heard.2.1.result = AckResult.rejectedCtx.code ∨ heard.2.2 = s.path.ctx ∧ frame.2.submission ≠ none
  | .deliver i _ _ => ∀ frame ∈ s.sent[i]?, frame.2.submission = none → s.node.ctx.pending.active = true → s.node.ctx.gate.anyInFlight = true
  | _ => True

def Ran (s : Link σ) (ctx : CtxId) (seq : Seq) : Prop := ∃ e ∈ s.executed, e.ctx = ctx ∧ e.seq = seq

def OnAir (s : Link σ) (mark : Mark) : Prop := ∃ frame ∈ s.sent, frame.2 = mark

-- What a COMMAND_ACK of the node is worth: it names the seq of the frame it was made for, and one that is not a REJECTED_CTX
-- names its context too and claims an execution only where there was one.
def Worth (s : Link σ) (id : NodeId) (mark : Mark) (hdr : Header) (payload : Bytes) : Prop :=
  hdr.type = .commandAck → OnAir s mark ∧ hdr.src = id ∧ ∃ result detail, payload = CommandAck.serialize ⟨mark.seq,result,detail⟩ ∧
    (mark.submission ≠ none → result ≠ AckResult.rejectedCtx.code → hdr.ctxId = mark.ctx ∧ (Positive result detail → Ran s mark.ctx mark.seq))

def Truthful (s : Link σ) (id : NodeId) (frame : Bytes × Mark) : Prop :=
  ∃ hdr payload, Worth s id frame.2 hdr payload ∧ encode hdr payload {mac := some mac,nodeKey := some (keys id)} maxFrame = .ok frame.1

-- The answer behind an Acked outcome: a COMMAND_ACK of the node, made for a COMMAND of this submission under the context that
-- COMMAND carried; and where it says so, the submission was executed.
def Answered (s : Link σ) (id : NodeId) (k : Nat) (result detail : UInt8) (answer : Option (Bytes × Mark)) : Prop :=
  ∃ bytes mark hdr, answer = some (bytes,mark) ∧ (bytes,mark) ∈ s.air ∧ OnAir s mark ∧ mark.submission = some k ∧
    hdr.type = .commandAck ∧ hdr.src = id ∧ hdr.ctxId = mark.ctx ∧
    encode hdr (CommandAck.serialize ⟨mark.seq,result,detail⟩) {mac := some mac,nodeKey := some (keys id)} maxFrame = .ok bytes ∧
    (Positive result detail → ∃ e ∈ s.executed, e.submission = some k)

-- The node's side.
structure Honest (id : NodeId) (s : Link σ) : Prop where
  wired : Wired mac keys s
  self : s.node.ctx.id = id
  orders : ∀ g ∈ s.given, g.req.cmd ≠ cmdRollContext
  ran : ∀ e ∈ s.executed, e.submission ≠ none ∧ OnAir s e
  holding : s.node.ctx.pending.active = true →
    s.holding ∈ s.executed ∧ s.holding.ctx = s.node.ctx.ctxId ∧ s.holding.seq = s.node.ctx.pending.seq
  gate : Vouched (Ran s s.node.ctx.ctxId) s.node.ctx.gate
  queue : ∀ frame ∈ s.queue, Truthful mac keys s id frame
  air : ∀ frame ∈ s.air, Truthful mac keys s id frame

-- The path's side.
structure Fair (id : NodeId) (s : Link σ) : Prop where
  awaited : s.path.phase = .awaiting → OnAir s ⟨some s.current,s.path.ctx,s.path.seq⟩
  answered : s.path.phase = .resolved → s.path.outcome = .acked → Answered mac keys s id s.current s.path.result s.path.detail s.answer
  resolved : ∀ r ∈ s.resolved, r.outcome = .acked → Answered mac keys s id r.submission r.result r.detail r.answer

-- Histories only grow.
structure Grows (s s' : Link σ) : Prop where
  sent : s.sent ⊆ s'.sent
  executed : s.executed ⊆ s'.executed
  air : s.air ⊆ s'.air

variable {mac ops keys listen} {s s' : Link σ} {id : NodeId}

theorem Grows.same (sent : s'.sent = s.sent) (executed : s'.executed = s.executed) (air : s'.air = s.air) : Grows s s' :=
  ⟨fun _ member => sent ▸ member,fun _ member => executed ▸ member,fun _ member => air ▸ member⟩

theorem Ran.mono {ctx : CtxId} {seq : Seq} (ran : Ran s ctx seq) (grows : Grows s s') : Ran s' ctx seq := by
  obtain ⟨e,member,same⟩ := ran
  exact ⟨e,grows.executed member,same⟩

theorem OnAir.mono {mark : Mark} (onAir : OnAir s mark) (grows : Grows s s') : OnAir s' mark := by
  obtain ⟨frame,member,same⟩ := onAir
  exact ⟨frame,grows.sent member,same⟩

theorem Worth.mono {mark : Mark} {hdr : Header} {payload : Bytes} (worth : Worth s id mark hdr payload) (grows : Grows s s') :
    Worth s' id mark hdr payload := by
  intro isAck
  obtain ⟨onAir,src,result,detail,serialized,meant⟩ := worth isAck
  refine ⟨onAir.mono grows,src,result,detail,serialized,fun numbered notCtx => ?_⟩
  obtain ⟨ctx,ran⟩ := meant numbered notCtx
  exact ⟨ctx,fun positive => (ran positive).mono grows⟩

theorem Truthful.mono {frame : Bytes × Mark} (truthful : Truthful mac keys s id frame) (grows : Grows s s') : Truthful mac keys s' id frame := by
  obtain ⟨hdr,payload,worth,encoded⟩ := truthful
  exact ⟨hdr,payload,worth.mono grows,encoded⟩

theorem Answered.mono {k : Nat} {result detail : UInt8} {answer : Option (Bytes × Mark)} (answered : Answered mac keys s id k result detail answer)
    (grows : Grows s s') : Answered mac keys s' id k result detail answer := by
  obtain ⟨bytes,mark,hdr,taken,air,onAir,numbered,type,src,ctx,encoded,ran⟩ := answered
  refine ⟨bytes,mark,hdr,taken,grows.air air,onAir.mono grows,numbered,type,src,ctx,encoded,fun positive => ?_⟩
  obtain ⟨e,member,same⟩ := ran positive
  exact ⟨e,grows.executed member,same⟩

theorem after_grows (s : Link σ) (mark : Mark) (n : Engine σ) : Grows s (s.after mark n) :=
  ⟨List.Subset.refl _,List.subset_append_right _ _,List.Subset.refl _⟩

theorem negative (result : AckResult) (notAccepted : result ≠ .accepted) (notCached : result ≠ .duplicateCached) :
    ¬ Positive result.code 0 := by
  rintro (accepted | ⟨cached,_⟩)
  · exact notAccepted (AckResult.code_injective _ _ accepted)
  · exact notCached (AckResult.code_injective _ _ cached)

variable {mark : Mark} {P : Header → Bytes → Prop} {n : Engine σ} {core : Core} {made : List CallKind}

-- An answer under the node's own context, for the frame in hand.
theorem worth_of_answers {result : AckResult} {detail : UInt8} (onAir : OnAir s' mark) (here : mark.ctx = s.node.ctx.ctxId)
    (self : s.node.ctx.id = id) (earned : Positive result.code detail → Ran s' mark.ctx mark.seq) (hdr : Header) (payload : Bytes)
    (answers : Answers s.node.ctx.id s.node.ctx.ctxId ⟨mark.seq,result.code,detail⟩ hdr payload) : Worth s' id mark hdr payload := by
  intro isAck
  obtain ⟨src,ctx,serialized⟩ := answers isAck
  exact ⟨onAir,src.trans self,result.code,detail,serialized,fun _ _ => ⟨ctx.trans here.symm,earned⟩⟩

theorem worth_of_noAck (hdr : Header) (payload : Bytes) (none : NoAck hdr payload) : Worth s id mark hdr payload :=
  fun isAck => absurd isAck none

theorem executed_mem (effect : Effect mac P s.node n core made) (one : made.countP isExecute = 1) : mark ∈ (s.after mark n).executed := by
  simp [Link.after,executes_made effect,one]

theorem carries_roll (orders : ∀ g ∈ s.given, g.req.cmd ≠ cmdRollContext) {cmd : Command} (carries : s.Carries mark cmd) :
    cmd.cmd = cmdRollContext ↔ mark.submission = none := by
  obtain ⟨submission,ctx,seq⟩ := mark
  cases submission with
  | none =>
      obtain rfl : cmd = rollCommand := carries
      exact ⟨fun _ => rfl,fun _ => rfl⟩
  | some k =>
      obtain ⟨g,here,rfl⟩ := carries
      exact ⟨fun roll => absurd roll (orders g (List.mem_of_getElem? here)),fun none => absurd none (by simp)⟩

theorem rest_worth (rest : Rest s mark P core) (honest : Honest mac keys id s) (hdr : Header) (payload : Bytes) (made : P hdr payload) :
    Worth (s.after mark n) id mark hdr payload := by
  have grows := after_grows s mark n
  cases rest with
  | answered result detail active same =>
      obtain ⟨ran,ctx,seq⟩ := honest.holding active
      subst same
      rw [← seq] at made
      exact worth_of_answers ((honest.ran _ ran).2.mono grows) ctx honest.self (fun _ => ⟨_,grows.executed ran,rfl,rfl⟩) hdr payload made
  | own => exact worth_of_noAck hdr payload made
  | idle => exact worth_of_noAck hdr payload made
  | tuned => exact worth_of_noAck hdr payload made

-- What every frame the node queues is worth, by why it was queued.
theorem cause_worth (cause : Cause s mark P core made) (effect : Effect mac P s.node n core made) (honest : Honest mac keys id s)
    (onAir : OnAir s mark) (hdr : Header) (payload : Bytes) (made : P hdr payload) : Worth (s.after mark n) id mark hdr payload := by
  have grows := after_grows s mark n
  have onAir' := onAir.mono grows
  cases cause with
  | refused =>
      intro isAck
      obtain ⟨src,_,serialized⟩ := made isAck
      exact ⟨onAir',src.trans honest.self,_,_,serialized,fun _ notCtx => absurd rfl notCtx⟩
  | rest rest => exact rest_worth rest honest hdr payload made
  | served cmd carries here outcome =>
      cases outcome with
      | quiet => exact worth_of_noAck hdr payload made
      | deferred => exact worth_of_noAck hdr payload made
      | refused result notAccepted notCached =>
          exact worth_of_answers onAir' here honest.self (fun positive => absurd positive (negative result notAccepted notCached)) hdr payload made
      | cached slot found quiet =>
          refine worth_of_answers onAir' here honest.self ?_ hdr payload made
          rintro (accepted | ⟨_,accepted⟩)
          · exact absurd accepted (by decide)
          · have ran : Ran s s.node.ctx.ctxId mark.seq := honest.gate.cached found quiet (AckResult.code_injective _ _ accepted)
            rw [← here] at ran
            exact ran.mono grows
      | rolled cmd' next parsed roll =>
          obtain rfl : cmd = cmd' := Option.some.inj ((Command.deserialize_serialize cmd).symm.trans parsed)
          intro isAck
          obtain ⟨src,_,serialized⟩ := made isAck
          exact ⟨onAir',src.trans honest.self,_,_,serialized,fun numbered => absurd ((carries_roll honest.orders carries).mp roll) numbered⟩
      | busy => exact worth_of_answers onAir' here honest.self (fun positive => absurd positive (negative _ (by decide) (by decide))) hdr payload made
      | executed cmd' pending =>
          exact worth_of_answers onAir' here honest.self (fun _ => ⟨mark,executed_mem effect rfl,rfl,rfl⟩) hdr payload made

theorem rest_vouched (rest : Rest s mark P core) (honest : Honest mac keys id s) : Vouched (Ran s s.node.ctx.ctxId) core.gate := by
  cases rest with
  | answered result detail active same =>
      obtain ⟨ran,ctx,seq⟩ := honest.holding active
      exact record_vouched _ _ _ honest.gate fun _ => ⟨_,ran,ctx,seq⟩
  | own => exact honest.gate
  | idle => exact honest.gate
  | tuned depths => exact List.foldlRecOn depths _ honest.gate fun _ vouched depth _ => setCacheDepth_vouched depth vouched

theorem cause_vouched (cause : Cause s mark P core made) (effect : Effect mac P s.node n core made) (honest : Honest mac keys id s) :
    Vouched (Ran (s.after mark n) core.ctxId) core.gate := by
  have grows := after_grows s mark n
  have before : Vouched (Ran (s.after mark n) s.node.ctx.ctxId) s.node.ctx.gate := honest.gate.mono fun _ ran => ran.mono grows
  cases cause with
  | refused => exact before
  | rest rest =>
      rw [rest.kept.2.1]
      exact (rest_vouched rest honest).mono fun _ ran => ran.mono grows
  | served cmd carries here outcome =>
      cases outcome with
      | quiet => exact before
      | refused => exact before
      | cached => exact before
      | rolled => exact resetContext_vouched _ before
      | busy => exact record_vouched _ _ _ (check_vouched _ before) fun accepted => absurd accepted (by decide)
      | deferred => exact check_vouched _ before
      | executed cmd' pending _ _ _ _ _ named =>
          exact record_vouched _ _ _ (check_vouched _ before) fun _ => ⟨mark,executed_mem effect rfl,here,named.symm⟩

-- A command in hand was executed, and in the context the node is still in.
theorem cause_holding (cause : Cause s mark P core made) (effect : Effect mac P s.node n core made) (honest : Honest mac keys id s)
    (settled : mark.submission = none → s.node.ctx.pending.active = true → s.node.ctx.gate.anyInFlight = true)
    (active : core.pending.active = true) :
    (s.after mark n).holding ∈ (s.after mark n).executed ∧ (s.after mark n).holding.ctx = core.ctxId ∧
      (s.after mark n).holding.seq = core.pending.seq := by
  have grows := after_grows s mark n
  have runs := executes_made effect
  have more : executes s.node ≤ executes n := by simp [executes,effect.calls]
  -- Nothing ran: what was held before is held now.
  have before : made.countP isExecute = 0 → s.node.ctx.pending.active = true →
      (s.after mark n).holding ∈ (s.after mark n).executed ∧ (s.after mark n).holding.ctx = s.node.ctx.ctxId ∧
        (s.after mark n).holding.seq = s.node.ctx.pending.seq := by
    intro none was
    obtain ⟨ran,ctx,seq⟩ := honest.holding was
    have same : (s.after mark n).holding = s.holding := by
      have equal : executes n = executes s.node := by omega
      simp [Link.after,equal]
    rw [same]
    exact ⟨grows.executed ran,ctx,seq⟩
  cases cause with
  | refused => exact before rfl active
  | rest rest =>
      cases rest with
      | answered => cases active
      | own => exact before rfl active
      | idle pending _ inactive =>
          rw [inactive] at active
          cases active
      | tuned => exact before rfl active
  | served cmd carries here outcome =>
      cases outcome with
      | quiet => exact before rfl active
      | refused => exact before rfl active
      | cached => exact before rfl active
      | rolled cmd' next parsed roll quiet =>
          obtain rfl : cmd = cmd' := Option.some.inj ((Command.deserialize_serialize cmd).symm.trans parsed)
          have inFlight := settled ((carries_roll honest.orders carries).mp roll) active
          exact absurd (quiet.symm.trans inFlight) (by decide)
      | busy => exact before rfl active
      | deferred cmd' pending _ _ _ _ _ named =>
          have same : (s.after mark n).holding = mark := by
            have one : executes n - executes s.node = 1 := runs
            have moved : executes n ≠ executes s.node := by omega
            simp [Link.after,moved]
          rw [same]
          exact ⟨executed_mem effect rfl,here,named.symm⟩
      | executed => cases active

-- Only a submission's frame is executed.
theorem cause_ran (cause : Cause s mark P core made) (orders : ∀ g ∈ s.given, g.req.cmd ≠ cmdRollContext)
    (ran : made.countP isExecute ≠ 0) : mark.submission ≠ none := by
  cases cause with
  | refused => exact absurd rfl ran
  | rest => exact absurd rfl ran
  | served cmd carries here outcome =>
      have submitted : ∀ cmd', Command.deserialize cmd.serialize = some cmd' → cmd'.cmd ≠ cmdRollContext → mark.submission ≠ none := by
        intro cmd' parsed noRoll none
        obtain rfl : cmd = cmd' := Option.some.inj ((Command.deserialize_serialize cmd).symm.trans parsed)
        exact noRoll ((carries_roll orders carries).mpr none)
      cases outcome with
      | deferred cmd' _ parsed noRoll => exact submitted cmd' parsed noRoll
      | executed cmd' _ parsed noRoll => exact submitted cmd' parsed noRoll
      | _ => exact absurd rfl ran

theorem moves_honest (s : Link σ) (mark : Mark) (n : Engine σ) (cause : Cause s mark P core made) (effect : Effect mac P s.node n core made)
    (honest : Honest mac keys id s) (worth : ∀ hdr payload, P hdr payload → Worth (s.after mark n) id mark hdr payload)
    (onAir : made.countP isExecute ≠ 0 → OnAir s mark)
    (settled : mark.submission = none → s.node.ctx.pending.active = true → s.node.ctx.gate.anyInFlight = true) :
    Honest mac keys id (s.after mark n) := by
  have grows := after_grows s mark n
  have runs := executes_made effect
  have sameId : n.ctx.id = id := ((congrArg Core.id effect.core).trans cause.id).trans honest.self
  have sameCtx : n.ctx.ctxId = core.ctxId := congrArg Core.ctxId effect.core
  have sameGate : n.ctx.gate = core.gate := congrArg Core.gate effect.core
  have samePending : n.ctx.pending = core.pending := congrArg Core.pending effect.core
  refine ⟨moves_wired s mark n honest.wired ⟨P,core,made,cause,effect⟩,sameId,honest.orders,?_,?_,?_,?_,?_⟩
  · intro e member
    rcases List.mem_append.mp member with new | old
    · obtain ⟨some,rfl⟩ := List.mem_replicate.mp new
      rw [runs] at some
      exact ⟨cause_ran cause honest.orders some,(onAir some).mono grows⟩
    · obtain ⟨numbered,sent⟩ := honest.ran e old
      exact ⟨numbered,sent.mono grows⟩
  · intro active
    change n.ctx.pending.active = true at active
    rw [samePending] at active
    obtain ⟨ran,ctx,seq⟩ := cause_holding cause effect honest settled active
    exact ⟨ran,ctx.trans sameCtx.symm,by rw [seq,← samePending]; rfl⟩
  · change Vouched (Ran (s.after mark n) n.ctx.ctxId) n.ctx.gate
    rw [sameCtx,sameGate]
    exact cause_vouched cause effect honest
  · obtain ⟨frames,queue,_,each⟩ := after_queue mark effect
    intro frame member
    rw [queue] at member
    rcases List.mem_append.mp member with old | new
    · exact (honest.queue frame old).mono grows
    · obtain ⟨bytes,inside,rfl⟩ := List.mem_map.mp new
      obtain ⟨hdr,payload,holds,encoded⟩ := each bytes inside
      rw [honest.wired.key,honest.self] at encoded
      exact ⟨hdr,payload,worth hdr payload holds,encoded⟩
  · intro frame member
    exact (honest.air frame member).mono grows

theorem rests_honest (s : Link σ) (n : Engine σ) (honest : Honest mac keys id s) (rests : s.Rests mac s.holding n) :
    Honest mac keys id (s.after s.holding n) := by
  obtain ⟨P,core,rest,effect⟩ := rests
  refine moves_honest s s.holding n (.rest rest) effect honest (rest_worth rest honest) (fun ran => absurd rfl ran) ?_
  intro none active
  exact absurd none (honest.ran _ (honest.holding active).1).1

theorem deliver_honest (s : Link σ) (frame : Bytes × Mark) (random : RandomFn) (nowMs : UInt32) (honest : Honest mac keys id s)
    (member : frame ∈ s.sent) (settled : frame.2.submission = none → s.node.ctx.pending.active = true → s.node.ctx.gate.anyInFlight = true) :
    Honest mac keys id (s.after frame.2 (s.node.receive mac ops frame.1 random nowMs)) := by
  obtain ⟨P,core,made,cause,effect⟩ : s.Moves mac frame.2 (s.node.receive mac ops frame.1 random nowMs) :=
    deliver_moves s frame random nowMs honest.wired member
  have onAir : OnAir s frame.2 := ⟨frame,member,rfl⟩
  exact moves_honest s frame.2 _ cause effect honest (cause_worth cause effect honest onAir) (fun _ => onAir) settled

-- A step of the bridge leaves the node's side alone.
structure Aside (s s' : Link σ) : Prop where
  node : s'.node = s.node
  executed : s'.executed = s.executed
  holding : s'.holding = s.holding
  queue : s'.queue = s.queue
  air : s'.air = s.air

theorem aside_honest (honest : Honest mac keys id s) (wired : Wired mac keys s') (aside : Aside s s') (sent : s.sent ⊆ s'.sent)
    (orders : ∀ g ∈ s'.given, g.req.cmd ≠ cmdRollContext) : Honest mac keys id s' := by
  have grows : Grows s s' := ⟨sent,fun _ member => aside.executed ▸ member,fun _ member => aside.air ▸ member⟩
  refine ⟨wired,aside.node ▸ honest.self,orders,?_,?_,?_,?_,?_⟩
  · intro e member
    obtain ⟨numbered,onAir⟩ := honest.ran e (aside.executed ▸ member)
    exact ⟨numbered,onAir.mono grows⟩
  · rw [aside.node,aside.holding,aside.executed]
    exact honest.holding
  · rw [aside.node]
    exact honest.gate.mono fun _ ran => ran.mono grows
  · intro frame member
    exact (honest.queue frame (aside.queue ▸ member)).mono grows
  · intro frame member
    exact (honest.air frame (aside.air ▸ member)).mono grows

variable (mac keys) in
theorem turn_aside (s : Link σ) (nowMs : UInt32) (queued : Bool) (ver : UInt8) :
    Aside s (s.turn mac keys nowMs queued ver) ∧ s.sent ⊆ (s.turn mac keys nowMs queued ver).sent ∧
      (s.turn mac keys nowMs queued ver).given = s.given := by
  rcases turn_cases mac keys s nowMs queued ver with moved | ⟨_,_,moved⟩ | ⟨_,_,_,_,moved⟩ | ⟨_,moved⟩ | ⟨_,moved⟩
  all_goals rw [moved]
  · exact ⟨⟨rfl,rfl,rfl,rfl,rfl⟩,fun _ member => member,rfl⟩
  · exact ⟨⟨rfl,rfl,rfl,rfl,rfl⟩,fun _ member => member,rfl⟩
  · exact ⟨⟨rfl,rfl,rfl,rfl,rfl⟩,List.subset_append_left _ _,rfl⟩
  · exact ⟨⟨rfl,rfl,rfl,rfl,rfl⟩,fun _ member => member,rfl⟩
  · exact ⟨⟨rfl,rfl,rfl,rfl,rfl⟩,fun _ member => member,rfl⟩

variable (listen) in
theorem hear_aside (s : Link σ) (frame : Bytes × Mark) (nowMs : UInt32) :
    Aside s (s.hear listen frame nowMs) ∧ (s.hear listen frame nowMs).sent = s.sent ∧ (s.hear listen frame nowMs).given = s.given := by
  unfold Link.hear
  split
  · exact ⟨⟨rfl,rfl,rfl,rfl,rfl⟩,rfl,rfl⟩
  · exact ⟨⟨rfl,rfl,rfl,rfl,rfl⟩,rfl,rfl⟩

theorem reboot_honest (s : Link σ) (random : RandomFn) (phy : PhyTrial) (app : σ) (honest : Honest mac keys id s) :
    Honest mac keys id (step mac ops keys listen s (.reboot random phy app)) := by
  have empty : Vouched (fun _ => True) ({} : CommandGate) :=
    ⟨by decide,by decide,fun i inside => absurd inside (Nat.not_lt_zero i)⟩
  refine ⟨step_wired s _ honest.wired,honest.self,honest.orders,honest.ran,?_,resetContext_vouched _ empty,?_,honest.air⟩
  · intro active
    cases active
  · intro frame member
    cases member

theorem transmit_honest (s : Link σ) (honest : Honest mac keys id s) : Honest mac keys id (step mac ops keys listen s .transmit) := by
  have grows : Grows s (step mac ops keys listen s .transmit) := ⟨List.Subset.refl _,List.Subset.refl _,List.subset_append_left _ _⟩
  refine ⟨step_wired s _ honest.wired,honest.self,honest.orders,honest.ran,honest.holding,honest.gate,?_,?_⟩
  · intro frame member
    exact (honest.queue frame (List.drop_subset 1 _ member)).mono grows
  · intro frame member
    rcases List.mem_append.mp member with old | new
    · exact (honest.air frame old).mono grows
    · exact (honest.queue frame (List.take_subset 1 _ new)).mono grows

theorem step_honest (s : Link σ) (i : Input σ) (honest : Honest mac keys id s) (assumed : Assumed mac ops keys listen s i)
    (unmistaken : Unmistaken listen s i) : Honest mac keys id (step mac ops keys listen s i) := by
  have wired : Wired mac keys (step mac ops keys listen s i) := step_wired s i honest.wired
  cases i with
  | submit req ctx seq nowMs =>
      by_cases idle : s.path.phase = .idle
      · simp only [step,CommandPath.submit,idle,ne_eq,not_true_eq_false,if_false] at wired ⊢
        refine aside_honest honest wired ⟨rfl,rfl,rfl,rfl,rfl⟩ (fun _ member => member) ?_
        intro g member
        rcases List.mem_append.mp member with old | new
        · exact honest.orders g old
        · obtain rfl := List.mem_singleton.mp new
          exact assumed.2
      · simp only [step,CommandPath.submit,ne_eq,idle,not_false_eq_true,if_true]
        exact honest
  | tick nowMs queued ver =>
      obtain ⟨aside,sent,given⟩ := turn_aside mac keys s nowMs queued ver
      exact aside_honest honest wired aside sent (by rw [step,given]; exact honest.orders)
  | aired airedMs => exact aside_honest honest wired ⟨rfl,rfl,rfl,rfl,rfl⟩ (fun _ member => member) honest.orders
  | setParams ackTimeoutMs retries => exact aside_honest honest wired ⟨rfl,rfl,rfl,rfl,rfl⟩ (fun _ member => member) honest.orders
  | sendRoll dst ctx seq ver =>
      simp only [step] at wired ⊢
      split at wired
      · exact honest
      · exact aside_honest honest wired ⟨rfl,rfl,rfl,rfl,rfl⟩ (List.subset_append_left _ _) honest.orders
  | deliver i random nowMs =>
      simp only [step]
      split
      · exact honest
      · rename_i bytes mark here
        exact deliver_honest s (bytes,mark) random nowMs honest (List.mem_of_getElem? here) (unmistaken (bytes,mark) here)
  | finish nowMs => exact rests_honest s _ honest (finish_rests s nowMs)
  | finishWith nowMs result => exact rests_honest s _ honest (finishWith_rests s nowMs result)
  | tune tunings => exact rests_honest s _ honest (tune_rests s _ tunings)
  | own input => exact rests_honest s _ honest (own_rests s _ input)
  | reboot random phy app => exact reboot_honest s random phy app honest
  | transmit => exact transmit_honest s honest
  | hear i nowMs =>
      simp only [step]
      split
      · exact honest
      · rename_i frame here
        obtain ⟨aside,sent,given⟩ := hear_aside listen s frame nowMs
        exact aside_honest honest (hear_wired s frame nowMs honest.wired) aside (fun _ member => sent ▸ member) (by rw [given]; exact honest.orders)

-- A step of the node leaves the path's side alone.
structure Apart (s s' : Link σ) : Prop where
  path : s'.path = s.path
  given : s'.given = s.given
  answer : s'.answer = s.answer
  resolved : s'.resolved = s.resolved

theorem apart_fair (fair : Fair mac keys id s) (apart : Apart s s') (grows : Grows s s') : Fair mac keys id s' := by
  have current : s'.current = s.current := by rw [Link.current,apart.given]; rfl
  refine ⟨?_,?_,?_⟩
  · rw [apart.path,current]
    exact fun awaiting => (fair.awaited awaiting).mono grows
  · rw [apart.path,apart.answer,current]
    exact fun finished acked => (fair.answered finished acked).mono grows
  · rw [apart.resolved]
    exact fun r member acked => (fair.resolved r member acked).mono grows

theorem submit_fair (s : Link σ) (req : CommandRequest) (ctx : CtxId) (seq : Seq) (nowMs : UInt32) (fair : Fair mac keys id s) :
    Fair mac keys id (step mac ops keys listen s (.submit req ctx seq nowMs)) := by
  by_cases idle : s.path.phase = .idle
  · simp only [step,CommandPath.submit,idle,ne_eq,not_true_eq_false,if_false]
    exact ⟨fun awaiting => (by cases awaiting),fun finished => (by cases finished),fun r member acked => (fair.resolved r member acked).mono (Grows.same rfl rfl rfl)⟩
  · simp only [step,CommandPath.submit,ne_eq,idle,not_false_eq_true,if_true]
    exact fair

theorem turn_fair (s : Link σ) (nowMs : UInt32) (queued : Bool) (ver : UInt8) (fair : Fair mac keys id s) :
    Fair mac keys id (s.turn mac keys nowMs queued ver) := by
  rcases turn_cases mac keys s nowMs queued ver with moved | ⟨_,_,moved⟩ | ⟨_,_,_,_,moved⟩ | ⟨_,moved⟩ | ⟨finished,moved⟩
  all_goals rw [moved]
  · exact fair
  · exact ⟨fun awaiting => (by cases awaiting),fun finished => (by cases finished),fun r member acked => (fair.resolved r member acked).mono (Grows.same rfl rfl rfl)⟩
  · refine ⟨fun _ => ⟨_,List.mem_append_right _ (List.mem_singleton.mpr rfl),rfl⟩,fun finished => (by cases finished),?_⟩
    exact fun r member acked => (fair.resolved r member acked).mono ⟨List.subset_append_left _ _,List.Subset.refl _,List.Subset.refl _⟩
  · refine ⟨fun awaiting => (by cases awaiting),fun finished => (by cases finished),?_⟩
    intro r member acked
    rcases List.mem_cons.mp member with rfl | old
    · cases acked
    · exact (fair.resolved r old acked).mono (Grows.same rfl rfl rfl)
  · refine ⟨fun awaiting => (by cases awaiting),fun finished => (by cases finished),?_⟩
    intro r member acked
    rcases List.mem_cons.mp member with rfl | old
    · exact (fair.answered finished acked).mono (Grows.same rfl rfl rfl)
    · exact (fair.resolved r old acked).mono (Grows.same rfl rfl rfl)

-- What the bridge reads out of a frame of the node is what the node put in.
theorem ackHeard_encoded {frame : Bytes × Mark} {hdr : Header} {payload : Bytes} {sender : EncodeCtx} {src : NodeId} {ack : CommandAck} {ctx : CtxId}
    (encoded : encode hdr payload sender maxFrame = .ok frame.1) (heard : ackHeard listen frame.1 = some (src,ack,ctx)) :
    hdr.type = .commandAck ∧ hdr.src = src ∧ hdr.ctxId = ctx ∧ CommandAck.deserialize payload = some ack := by
  unfold ackHeard at heard
  split at heard
  · rename_i head headed
    split at heard
    · rename_i f decoded
      obtain ⟨sameHdr,samePayload,_⟩ := decodePayload_cases _ _ _ _ _ _ _ _ _ _ encoded headed decoded
      split at heard
      · rename_i isAck
        obtain ⟨_,parsed,same⟩ := Option.map_eq_some_iff.mp heard
        cases same
        rw [sameHdr] at isAck
        rw [sameHdr,← samePayload]
        exact ⟨isAck,rfl,rfl,parsed⟩
      · cases heard
    · cases heard
  · cases heard

-- The answer the path takes is an answer to the submission in flight.
theorem matched_answered (s : Link σ) (frame : Bytes × Mark) (src : NodeId) (ack : CommandAck) (ctx : CtxId) (honest : Honest mac keys id s)
    (fair : Fair mac keys id s) (distinct : Distinct s) (member : frame ∈ s.air) (heard : ackHeard listen frame.1 = some (src,ack,ctx))
    (mine : s.path.Matches src ack) (notCtx : ack.result ≠ AckResult.rejectedCtx.code) (own : ctx = s.path.ctx)
    (numbered : frame.2.submission ≠ none) : Answered mac keys s id s.current ack.result ack.detail (some frame) := by
  obtain ⟨hdr,payload,worth,encoded⟩ := honest.air frame member
  obtain ⟨isAck,_,sameCtx,parsed⟩ := ackHeard_encoded encoded heard
  obtain ⟨onAir,src,result,detail,rfl,meant⟩ := worth isAck
  rw [CommandAck.deserialize_serialize] at parsed
  cases parsed
  obtain ⟨sameMark,ran⟩ := meant numbered notCtx
  -- The awaited frame and the answered one carry one pair.
  obtain ⟨awaiting,_,sameSeq⟩ := mine
  obtain ⟨sent,sentIn,sentMark⟩ := fair.awaited awaiting
  obtain ⟨asked,askedIn,askedMark⟩ := onAir
  have here : frame.2.submission = some s.current := by
    rw [← askedMark] at numbered sameMark sameSeq ⊢
    have one := distinct asked askedIn sent sentIn numbered (by simp [sentMark]) (by rw [sentMark,← sameMark,sameCtx,own])
      (by rw [sentMark]; exact sameSeq)
    rw [one,sentMark]
  refine ⟨frame.1,frame.2,hdr,rfl,member,⟨asked,askedIn,askedMark⟩,here,isAck,src,sameMark,encoded,?_⟩
  intro positive
  obtain ⟨e,ranHere,ctxHere,seqHere⟩ := ran positive
  obtain ⟨numberedE,f,fIn,rfl⟩ := honest.ran e ranHere
  refine ⟨f.2,ranHere,?_⟩
  rw [distinct f fIn asked askedIn numberedE (askedMark ▸ numbered) (askedMark ▸ ctxHere) (askedMark ▸ seqHere),askedMark,here]

theorem hear_fair (s : Link σ) (frame : Bytes × Mark) (nowMs : UInt32) (honest : Honest mac keys id s) (fair : Fair mac keys id s)
    (distinct : Distinct s) (member : frame ∈ s.air)
    (own : ∀ src ack ctx, ackHeard listen frame.1 = some (src,ack,ctx) → s.path.Matches src ack →
      ack.result = AckResult.rejectedCtx.code ∨ ctx = s.path.ctx ∧ frame.2.submission ≠ none) :
    Fair mac keys id (s.hear listen frame nowMs) := by
  unfold Link.hear
  split
  · exact fair
  · rename_i src ack ctx heard
    have resolved : ∀ r ∈ s.resolved, r.outcome = .acked → Answered mac keys s id r.submission r.result r.detail r.answer := fair.resolved
    rcases s.path.onAck_cases src ack ctx nowMs with ⟨other,same⟩ | ⟨mine,_,_,_,moved⟩ | ⟨mine,_,_,_,moved⟩ | ⟨mine,_,_,moved⟩ | ⟨mine,notCtx,moved⟩
    · rw [same,if_neg other]
      exact fair
    · rw [moved]
      exact ⟨fun awaiting => (by cases awaiting),fun finished => (by cases finished),fun r inside acked => (resolved r inside acked).mono (Grows.same rfl rfl rfl)⟩
    · rw [moved]
      exact ⟨fun awaiting => (by cases awaiting),fun _ acked => (by cases acked),fun r inside acked => (resolved r inside acked).mono (Grows.same rfl rfl rfl)⟩
    · rw [moved]
      exact ⟨fun awaiting => (by cases awaiting),fun _ acked => (by cases acked),fun r inside acked => (resolved r inside acked).mono (Grows.same rfl rfl rfl)⟩
    · rw [moved,if_pos mine]
      obtain ⟨sameCtx,numbered⟩ := (own src ack ctx heard mine).resolve_left notCtx
      have taken := matched_answered s frame src ack ctx honest fair distinct member heard mine notCtx sameCtx numbered
      exact ⟨fun awaiting => (by cases awaiting),fun _ _ => taken.mono (Grows.same rfl rfl rfl),fun r inside acked => (resolved r inside acked).mono (Grows.same rfl rfl rfl)⟩

theorem step_fair (s : Link σ) (i : Input σ) (honest : Honest mac keys id s) (fair : Fair mac keys id s) (distinct : Distinct s)
    (unmistaken : Unmistaken listen s i) : Fair mac keys id (step mac ops keys listen s i) := by
  cases i with
  | submit req ctx seq nowMs => exact submit_fair s req ctx seq nowMs fair
  | tick nowMs queued ver => exact turn_fair s nowMs queued ver fair
  | aired airedMs =>
      simp only [step,CommandPath.onAired]
      split
      · exact ⟨fun awaiting => (fair.awaited awaiting).mono (Grows.same rfl rfl rfl),fun finished acked => (fair.answered finished acked).mono (Grows.same rfl rfl rfl),
          fun r member acked => (fair.resolved r member acked).mono (Grows.same rfl rfl rfl)⟩
      · exact fair
  | setParams ackTimeoutMs retries =>
      exact ⟨fun awaiting => (fair.awaited awaiting).mono (Grows.same rfl rfl rfl),fun finished acked => (fair.answered finished acked).mono (Grows.same rfl rfl rfl),
        fun r member acked => (fair.resolved r member acked).mono (Grows.same rfl rfl rfl)⟩
  | sendRoll dst ctx seq ver =>
      simp only [step]
      split
      · exact fair
      · exact apart_fair fair ⟨rfl,rfl,rfl,rfl⟩ ⟨List.subset_append_left _ _,List.Subset.refl _,List.Subset.refl _⟩
  | deliver i random nowMs =>
      simp only [step]
      split
      · exact fair
      · exact apart_fair fair ⟨rfl,rfl,rfl,rfl⟩ (after_grows _ _ _)
  | finish nowMs => exact apart_fair fair ⟨rfl,rfl,rfl,rfl⟩ (after_grows _ _ _)
  | finishWith nowMs result => exact apart_fair fair ⟨rfl,rfl,rfl,rfl⟩ (after_grows _ _ _)
  | tune tunings => exact apart_fair fair ⟨rfl,rfl,rfl,rfl⟩ (after_grows _ _ _)
  | own input => exact apart_fair fair ⟨rfl,rfl,rfl,rfl⟩ (after_grows _ _ _)
  | reboot random phy app => exact apart_fair fair ⟨rfl,rfl,rfl,rfl⟩ (Grows.same rfl rfl rfl)
  | transmit => exact apart_fair fair ⟨rfl,rfl,rfl,rfl⟩ ⟨List.Subset.refl _,List.Subset.refl _,List.subset_append_left _ _⟩
  | hear i nowMs =>
      simp only [step]
      split
      · exact fair
      · rename_i frame here
        exact hear_fair s frame nowMs honest fair distinct (List.mem_of_getElem? here)
          fun src ack ctx heard mine => unmistaken frame here (src,ack,ctx) heard mine

-- How often submission `k` of `total` is to be resolved by now: once, but for the last while it is in flight.
def resolutionsDue (total : Nat) (busy : Bool) (k : Nat) : Nat := if k < total ∧ ¬ (k + 1 = total ∧ busy = true) then 1 else 0

structure Counted (s : Link σ) : Prop where
  some : s.path.busy = true → s.given ≠ []
  count : ∀ k, s.resolved.countP (fun r => r.submission = k) = resolutionsDue s.given.length s.path.busy k

theorem apart_counted (counted : Counted s) (busy : s'.path.busy = s.path.busy) (given : s'.given = s.given) (resolved : s'.resolved = s.resolved) :
    Counted s' := by
  refine ⟨?_,?_⟩
  · rw [busy,given]
    exact counted.some
  · rw [busy,given,resolved]
    exact counted.count

-- A resolve ends the submission in flight.
theorem resolve_counted (counted : Counted s) (busy : s.path.busy = true) (idle : s'.path.busy = false) (given : s'.given = s.given)
    (r : Resolution) (own : r.submission = s.current) (resolved : s'.resolved = r :: s.resolved) : Counted s' := by
  have positive := List.length_pos_iff.mpr (counted.some busy)
  refine ⟨fun still => absurd (idle.symm.trans still) (by decide),?_⟩
  intro k
  have before := counted.count k
  rw [busy] at before
  rw [resolved,List.countP_cons,before,own,given,idle]
  have current : s.current = s.given.length - 1 := rfl
  simp only [resolutionsDue,and_true,Bool.false_eq_true,and_false,not_false_eq_true]
  by_cases last : s.current = k
  · simp only [last,decide_true,if_true]
    rw [if_neg (by omega),if_pos (by omega)]
  · simp only [last,decide_false,Bool.false_eq_true,if_false]
    split <;> split <;> omega

theorem submit_counted (s : Link σ) (req : CommandRequest) (ctx : CtxId) (seq : Seq) (nowMs : UInt32) (counted : Counted s) :
    Counted (step mac ops keys listen s (.submit req ctx seq nowMs)) := by
  by_cases idle : s.path.phase = .idle
  · simp only [step,CommandPath.submit,idle,ne_eq,not_true_eq_false,if_false]
    refine ⟨fun _ => by simp,?_⟩
    intro k
    have before := counted.count k
    have free : s.path.busy = false := by simp [CommandPath.busy,idle]
    rw [free] at before
    change s.resolved.countP _ = resolutionsDue (s.given ++ [_]).length true k
    rw [before,List.length_append,List.length_singleton]
    simp only [resolutionsDue,Bool.false_eq_true,and_false,not_false_eq_true,and_true]
    split <;> split <;> omega
  · simp only [step,CommandPath.submit,ne_eq,idle,not_false_eq_true,if_true]
    exact counted

theorem turn_counted (s : Link σ) (nowMs : UInt32) (queued : Bool) (ver : UInt8) (counted : Counted s) :
    Counted (s.turn mac keys nowMs queued ver) := by
  have dueBusy : ∀ attempt, s.Due attempt → s.path.busy = true := by
    rintro attempt (⟨phase,_⟩ | ⟨phase,_⟩) <;> simp [CommandPath.busy,phase]
  rcases turn_cases mac keys s nowMs queued ver with moved | ⟨_,due,moved⟩ | ⟨_,_,due,_,moved⟩ | ⟨phase,moved⟩ | ⟨phase,moved⟩
  all_goals rw [moved]
  · exact counted
  · exact apart_counted counted (dueBusy _ due).symm rfl rfl
  · exact apart_counted counted (dueBusy _ due).symm rfl rfl
  · exact resolve_counted counted (by simp [CommandPath.busy,phase]) rfl rfl _ rfl rfl
  · exact resolve_counted counted (by simp [CommandPath.busy,phase]) rfl rfl _ rfl rfl

theorem step_counted (s : Link σ) (i : Input σ) (counted : Counted s) : Counted (step mac ops keys listen s i) := by
  cases i with
  | submit req ctx seq nowMs => exact submit_counted s req ctx seq nowMs counted
  | tick nowMs queued ver => exact turn_counted s nowMs queued ver counted
  | aired airedMs =>
      refine apart_counted counted ?_ rfl rfl
      simp only [step,CommandPath.onAired]
      split <;> rfl
  | sendRoll dst ctx seq ver =>
      simp only [step]
      split
      · exact counted
      · exact apart_counted counted rfl rfl rfl
  | deliver i random nowMs =>
      simp only [step]
      split
      · exact counted
      · exact apart_counted counted rfl rfl rfl
  | hear i nowMs =>
      simp only [step]
      split
      · exact counted
      · unfold Link.hear
        split
        · exact counted
        · exact apart_counted counted (onAck_busy _ _ _ _ _) rfl rfl
  | _ => exact apart_counted counted rfl rfl rfl

variable (mac keys) in
structure Agreement (id : NodeId) (s : Link σ) : Prop where
  honest : Honest mac keys id s
  fair : Fair mac keys id s
  counted : Counted s
  distinct : Distinct s

theorem step_agreement (s : Link σ) (i : Input σ) (valid : Agreement mac keys id s) (assumed : Assumed mac ops keys listen s i)
    (unmistaken : Unmistaken listen s i) : Agreement mac keys id (step mac ops keys listen s i) :=
  ⟨step_honest s i valid.honest assumed unmistaken,step_fair s i valid.honest valid.fair valid.distinct unmistaken,step_counted s i valid.counted,
    assumed.1⟩

theorem start_agreement (id : NodeId) (ver : UInt8) (random : RandomFn) (phy : PhyTrial) (app : σ) :
    Agreement mac keys id (start keys id ver random phy app) := by
  have empty : Vouched (fun _ => True) ({} : CommandGate) :=
    ⟨by decide,by decide,fun i inside => absurd inside (Nat.not_lt_zero i)⟩
  refine ⟨⟨start_wired id ver random phy app,rfl,by simp [start],by simp [start],?_,resetContext_vouched _ empty,by simp [start],by simp [start]⟩,
    ⟨?_,?_,by simp [start]⟩,⟨by simp [start,CommandPath.busy],by simp [start,resolutionsDue]⟩,by simp [Distinct,start]⟩
  · intro active
    cases active
  · intro awaiting
    cases awaiting
  · intro finished
    cases finished

variable (mac ops keys listen)

-- Acked means answered: by the node, for a COMMAND of this submission, under the context that COMMAND carried; and a result
-- that says the command ran is true. Every accepted submission is resolved once: not before it is over, and at the latest
-- after as many turns as its attempts allow.
theorem acked_means_answered (id : NodeId) (ver : UInt8) (random : RandomFn) (phy : PhyTrial) (app : σ) (s : Link σ)
    (run : Reached (step mac ops keys listen) (fun s i => Assumed mac ops keys listen s i ∧ Unmistaken listen s i)
      (start keys id ver random phy app) s) :
    (∀ r ∈ s.resolved, r.outcome = .acked → Answered mac keys s id r.submission r.result r.detail r.answer) ∧
    (∀ k, s.resolved.countP (fun r => r.submission = k) = resolutionsDue s.given.length s.path.busy k) ∧
    (s.path.busy = true → ∀ inputs, maxTurns ≤ turns mac ops keys listen s inputs →
      ∃ r ∈ (inputs.foldl (step mac ops keys listen) s).resolved, r.submission = s.current) := by
  have valid : Agreement mac keys id s := run.invariant (Agreement mac keys id) (start_agreement id ver random phy app)
    fun s i valid allowed => step_agreement s i valid allowed.1 allowed.2
  refine ⟨valid.fair.resolved,valid.counted.count,?_⟩
  intro busy inputs enough
  exact resolves mac ops keys listen s inputs busy ((budget_le s.path).trans enough)

instance (s : Link σ) : Decidable (Distinct s) := inferInstanceAs (Decidable (∀ f ∈ s.sent, ∀ f' ∈ s.sent, _ → _ → _ → _ → _))

instance (s : Link σ) : (i : Input σ) → Decidable (Ordinary s i)
  | .submit req _ _ _ => inferInstanceAs (Decidable (req.cmd ≠ cmdRollContext))
  | .reboot random _ _ => inferInstanceAs (Decidable ((newCtxId random 0).1 ∉ s.used))
  | .tick .. | .aired _ | .setParams .. | .sendRoll .. | .deliver .. | .finish _ | .finishWith .. | .tune _ | .own _ | .transmit
  | .hear .. => .isTrue trivial

instance (s : Link σ) (i : Input σ) : Decidable (Assumed mac ops keys listen s i) := inferInstanceAs (Decidable (_ ∧ _))

instance (s : Link σ) : (i : Input σ) → Decidable (Unmistaken listen s i)
  | .hear i _ => inferInstanceAs (Decidable (∀ frame ∈ s.air[i]?, ∀ heard ∈ ackHeard listen frame.1, _ → _))
  | .deliver i _ _ => inferInstanceAs (Decidable (∀ frame ∈ s.sent[i]?, _ → _ → _))
  | .submit .. | .tick .. | .aired _ | .setParams .. | .sendRoll .. | .finish _ | .finishWith .. | .tune _ | .own _ | .reboot .. | .transmit =>
      .isTrue trivial

end

-- OPEN, sent, run and acknowledged.
def acknowledged : List (Input Unit) :=
  [.submit openGate 10 1 0,.tick 0 true protoVer,.deliver 0 (fun _ => 0) 0,.transmit,.hear 0 100,.tick 100 false protoVer]

theorem acked_means_answered_open :
    let s := acknowledged.foldl (step lengthMac obedient (fun _ => zeroKey) {}) gate
    (∃ r ∈ s.resolved, r.outcome = .acked ∧ r.submission = 0) ∧
      (∀ r ∈ s.resolved, r.outcome = .acked → Answered lengthMac (fun _ => zeroKey) s nodeGateLink r.submission r.result r.detail r.answer) ∧
      s.resolved.countP (fun r => r.submission = 0) = 1 := by
  have permitted : Follows (step lengthMac obedient (fun _ => zeroKey) {})
      (fun s i => Assumed lengthMac obedient (fun _ => zeroKey) {} s i ∧ Unmistaken {} s i) gate acknowledged := by decide +kernel
  obtain ⟨answered,once,_⟩ := acked_means_answered lengthMac obedient (fun _ => zeroKey) {} nodeGateLink protoVer (fun _ => 10) {} () _ permitted.reached
  exact ⟨by decide +kernel,answered,(once 0).trans (by decide +kernel)⟩

-- REQUEST_STATUS is run and acknowledged in context 10; the node restarts into 20; OPEN is sent as (20,1) and lost, and a late
-- copy of the old ACK, under 10, is taken for its answer.
def staleAck : List (Input Unit) :=
  [.submit {dst := nodeGateLink,cmd := cmdRequestStatus} 10 1 0,.tick 0 true protoVer,.deliver 0 (fun _ => 0) 0,.transmit,.hear 0 100,
    .tick 100 false protoVer,.reboot (fun _ => 20) {} (),.submit openGate 20 1 200,.tick 200 true protoVer,.hear 0 300,.tick 300 false protoVer]

theorem stale_ack_resolves_accepted :
    ¬ ∀ s, Reached (step lengthMac obedient (fun _ => zeroKey) {}) (Assumed lengthMac obedient (fun _ => zeroKey) {}) gate s →
      ∀ r ∈ s.resolved, r.outcome = .acked → Answered lengthMac (fun _ => zeroKey) s nodeGateLink r.submission r.result r.detail r.answer := by
  intro always
  let s := staleAck.foldl (step lengthMac obedient (fun _ => zeroKey) {}) gate
  have permitted : Follows (step lengthMac obedient (fun _ => zeroKey) {}) (Assumed lengthMac obedient (fun _ => zeroKey) {}) gate staleAck := by
    decide +kernel
  have taken : ∃ r ∈ s.resolved, r.outcome = .acked ∧ r.submission = 1 ∧ r.result = AckResult.accepted.code := by decide +kernel
  have idle : ∀ e ∈ s.executed, e.submission ≠ some 1 := by decide +kernel
  obtain ⟨r,member,acked,second,accepted⟩ := taken
  obtain ⟨_,_,_,_,_,_,_,_,_,_,_,ran⟩ := always s permitted.reached r member acked
  obtain ⟨e,ranHere,same⟩ := ran (.inl accepted)
  exact idle e ranHere (same.trans (congrArg some second))

end LoraRan.System.OutcomeAgreement
