import LoraRan.Node.Sends
import LoraRan.Protocol.RoundTrip

namespace LoraRan.Node
open Protocol Config

-- The part of a context that decides what a COMMAND does.
structure Core where
  id : NodeId
  ctxId : CtxId
  gate : CommandGate
  pending : PendingCommand

def Context.core (c : Context) : Core := ⟨c.id,c.ctxId,c.gate,c.pending⟩

-- Where the core stands once the command in hand is answered.
def Core.finished (c : Core) : Core :=
  {c with gate := (c.gate.record c.pending.seq c.pending.result c.pending.detail).2,pending := {c.pending with active := false}}

-- COMMAND_ACKs by what is in them. Other frames are not answers.
def Answers (id : NodeId) (ctxId : CtxId) (ack : CommandAck) (hdr : Header) (payload : Bytes) : Prop :=
  hdr.type = .commandAck → hdr.src = id ∧ hdr.ctxId = ctxId ∧ payload = ack.serialize

def NoAck (hdr : Header) (_ : Bytes) : Prop := hdr.type ≠ .commandAck

-- Everything one COMMAND can do to a core: the answer it draws, where it leaves the core, and the calls it costs.
inductive Outcome (c : Core) (seq : Seq) (payload : Bytes) : (Header → Bytes → Prop) → Core → List CallKind → Prop
  | quiet : Outcome c seq payload NoAck c []
  | refused (result : AckResult) : result ≠ .accepted → result ≠ .duplicateCached →
      Outcome c seq payload (Answers c.id c.ctxId ⟨seq,result.code,0⟩) c []
  | cached (slot : Nat) : c.gate.find seq = some slot → c.gate.inFlight slot = false →
      Outcome c seq payload (Answers c.id c.ctxId ⟨seq,AckResult.duplicateCached.code,(c.gate.entries slot).result.code⟩) c []
  | rolled (cmd : Command) (next : CtxId) : Command.deserialize payload = some cmd → cmd.cmd = cmdRollContext →
      c.gate.anyInFlight = false → next ≠ c.ctxId → next ≠ 0 →
      Outcome c seq payload (Answers c.id next ⟨seq,AckResult.accepted.code,0⟩) {c with ctxId := next,gate := c.gate.resetContext next}
        [.rollContext]
  | busy : (c.gate.check seq).1.verdict = .execute → c.pending.active = true →
      Outcome c seq payload (Answers c.id c.ctxId ⟨seq,AckResult.actuatorBusy.code,0⟩)
        {c with gate := ((c.gate.check seq).2.record seq .actuatorBusy 0).2} []
  | deferred (cmd : Command) (pending : PendingCommand) : Command.deserialize payload = some cmd → cmd.cmd ≠ cmdRollContext →
      (c.gate.check seq).1.verdict = .execute → c.pending.active = false → pending.active = true → pending.seq = seq →
      Outcome c seq payload NoAck {c with gate := (c.gate.check seq).2,pending := pending} [.execute cmd]
  | executed (cmd : Command) (pending : PendingCommand) : Command.deserialize payload = some cmd → cmd.cmd ≠ cmdRollContext →
      (c.gate.check seq).1.verdict = .execute → c.pending.active = false → pending.active = true → pending.seq = seq →
      Outcome c seq payload (Answers c.id c.ctxId ⟨seq,pending.result.code,pending.detail⟩)
        (Core.finished {c with gate := (c.gate.check seq).2,pending := pending}) [.execute cmd]

section
variable {σ : Type}

-- What a node did, as far as commands see it: where its core stands, the calls it made and the frames it queued.
structure Effect (mac : Mac) (P : Header → Bytes → Prop) (n n' : Engine σ) (core : Core) (made : List CallKind) : Prop where
  key : n'.ctx.key = n.ctx.key
  core : n'.ctx.core = core
  calls : n'.calls.map Call.kind = made ++ n.calls.map Call.kind
  outbox : ∃ frames, n'.outbox = n.outbox ++ frames ∧ ∀ bytes ∈ frames, ∃ hdr payload, P hdr payload ∧
    encode hdr payload {mac := some mac,nodeKey := some n.ctx.key} maxFrame = .ok bytes

-- A step that queues nothing and calls nothing.
structure Still (n n' : Engine σ) : Prop where
  key : n'.ctx.key = n.ctx.key
  calls : n'.calls = n.calls
  outbox : n'.outbox = n.outbox

variable {mac : Mac} {ops : Application σ} {P Q : Header → Bytes → Prop} {n m n' : Engine σ} {core core' : Core} {made made' : List CallKind}

theorem Still.effect (still : Still n n') (moved : n'.ctx.core = core) : Effect mac P n n' core [] :=
  ⟨still.key,moved,by rw [still.calls]; rfl,[],by simp [still.outbox],by simp⟩

theorem Effect.refl (n : Engine σ) : Effect mac P n n n.ctx.core [] := Still.effect ⟨rfl,rfl,rfl⟩ rfl

theorem Sends.effect (sends : Sends mac ops P n n') : Effect mac P n n' n.ctx.core [] := by
  obtain ⟨_,_,_,ctx⟩ := sends.ctx
  refine ⟨sends.key,?_,by rw [sends.calls]; rfl,sends.outbox⟩
  rw [ctx]
  rfl

theorem Effect.trans (first : Effect mac P n m core made) (second : Effect mac P m n' core' made') :
    Effect mac P n n' core' (made' ++ made) := by
  obtain ⟨frames,outbox,early⟩ := first.outbox
  obtain ⟨frames',outbox',late⟩ := second.outbox
  refine ⟨second.key.trans first.key,second.core,?_,frames ++ frames',?_,?_⟩
  · rw [second.calls,first.calls,List.append_assoc]
  · rw [outbox',outbox,List.append_assoc]
  · intro bytes member
    rcases List.mem_append.mp member with inFirst | inSecond
    · exact early bytes inFirst
    · rw [← first.key]
      exact late bytes inSecond

theorem Effect.weaken (effect : Effect mac P n n' core made) (implied : ∀ hdr payload, P hdr payload → Q hdr payload) :
    Effect mac Q n n' core made := by
  obtain ⟨frames,outbox,each⟩ := effect.outbox
  refine ⟨effect.key,effect.core,effect.calls,frames,outbox,?_⟩
  intro bytes member
  obtain ⟨hdr,payload,holds,encoded⟩ := each bytes member
  exact ⟨hdr,payload,implied hdr payload holds,encoded⟩

-- A quiet step on either side of one that answers.
theorem Effect.after (m : Engine σ) (effect : Effect mac P m n' core made) (still : Still n m) : Effect mac P n n' core made := by
  have joined := (Still.effect still rfl).trans effect
  rwa [List.append_nil] at joined

theorem Effect.before (effect : Effect mac P n m core made) (still : Still m n') (kept : n'.ctx.core = m.ctx.core) :
    Effect mac P n n' core made := effect.trans (Still.effect still (kept.trans effect.core))

theorem noAck_of_plain (c : Context) (hdr : Header) (payload : Bytes) (plain : PlainFrame c hdr payload) : NoAck hdr payload := by
  intro isAck
  have listed := plain.2.2
  rw [isAck] at listed
  exact absurd listed (by decide)

theorem answers_of_noAck (id : NodeId) (ctxId : CtxId) (ack : CommandAck) (hdr : Header) (payload : Bytes) (none : NoAck hdr payload) :
    Answers id ctxId ack hdr payload := fun isAck => absurd isAck none

theorem answers_of_ack (c : Context) (peer : NodeId) (ack : CommandAck) (hdr : Header) (payload : Bytes)
    (frame : AckFrame c peer ack hdr payload) : Answers c.id c.ctxId ack hdr payload := by
  obtain ⟨⟨seq,rfl⟩,rfl⟩ := frame
  exact fun _ => ⟨rfl,rfl,rfl⟩

theorem Effect.finish {id : NodeId} {ctxId : CtxId} {ack : CommandAck} (acked : Effect mac (Answers id ctxId ack) n m core made)
    (plain : Effect mac NoAck m n' m.ctx.core []) : Effect mac (Answers id ctxId ack) n n' core made := by
  have joined := acked.trans (plain.weaken (answers_of_noAck _ _ _))
  rwa [acked.core] at joined

variable (mac ops)

include ops in
theorem sendAck_effect (n : Engine σ) (peer : NodeId) (seq : Seq) (result : AckResult) (detail : UInt8) :
    Effect mac (Answers n.ctx.id n.ctx.ctxId ⟨seq,result.code,detail⟩) n (n.sendAck mac peer seq result detail).2 n.ctx.core [] :=
  (sendAck_sends mac ops n peer seq result detail).effect.weaken (answers_of_ack _ _ _)

theorem sendFreshAck_effect (n : Engine σ) (peer : NodeId) (seq : Seq) (result : AckResult) (detail : UInt8) :
    Effect mac (Answers n.ctx.id n.ctx.ctxId ⟨seq,result.code,detail⟩) n (n.sendFreshAck mac ops peer seq result detail) n.ctx.core [] :=
  (sendFreshAck_sends mac ops n peer seq result detail).effect.weaken (answers_of_ack _ _ _)

theorem plain_effect (n n' : Engine σ) (sends : Sends mac ops (PlainFrame n.ctx) n n') : Effect mac NoAck n n' n.ctx.core [] :=
  sends.effect.weaken (noAck_of_plain _)

include ops in
theorem sendHexRsp_effect (n : Engine σ) (dst : NodeId) (seq : Seq) (status : HexStatus) (hex : Bytes) :
    Effect mac NoAck n (n.sendHexRsp mac dst seq status hex).2 n.ctx.core [] := by
  refine (sendHexRsp_sends mac ops n dst seq status hex).effect.weaken ?_
  rintro hdr payload ⟨rfl,_⟩ isAck
  cases isAck

include ops in
theorem tick_effect (n : Engine σ) (nowMs : UInt32) : Effect mac NoAck n (n.tick mac nowMs) n.ctx.core [] := by
  unfold Engine.tick Engine.tickHex
  dsimp only
  split
  · exact Still.effect ⟨rfl,rfl,rfl⟩ rfl
  · generalize idled : ({n with ctx := _} : Engine σ) = m
    have sent := sendHexRsp_effect mac ops m n.ctx.hexPending.peer n.ctx.hexPending.seq .timeout []
    subst idled
    exact Effect.after _ sent ⟨rfl,rfl,rfl⟩

theorem announceBoot_effect (n : Engine σ) (cause : UInt8) (nowMs : UInt32) :
    Effect mac NoAck n (n.announceBoot mac ops cause nowMs).2 n.ctx.core [] := by
  unfold Engine.announceBoot
  dsimp only
  have stated := plain_effect mac ops _ _ (sendStatus_sends mac ops n nodeBridge .boot nowMs)
  generalize (n.sendStatus mac ops nodeBridge .boot nowMs).2 = m at stated ⊢
  split
  · exact stated.before ⟨rfl,rfl,rfl⟩ rfl
  · generalize built : ({m with app := _} : Engine σ) = ready
    have sent := plain_effect mac ops _ _ (sendEvent_sends mac ops ready nodeBridge
      (ops.buildEvent m.app m.ctx .boot (resetCauseDetail cause) nowMs).1.1 (ops.buildEvent m.app m.ctx .boot (resetCauseDetail cause) nowMs).1.2)
    subst built
    have joined := stated.trans (Effect.after _ sent ⟨rfl,rfl,rfl⟩)
    rw [show Context.core _ = n.ctx.core from stated.core] at joined
    split
    · exact joined
    · exact joined.before ⟨rfl,rfl,rfl⟩ rfl

-- The answer owed for the command in hand, and what follows it.
theorem finishCommand_effect (n : Engine σ) (nowMs : UInt32) (active : n.ctx.pending.active = true) :
    Effect mac (Answers n.ctx.id n.ctx.ctxId ⟨n.ctx.pending.seq,n.ctx.pending.result.code,n.ctx.pending.detail⟩) n
      (n.finishCommand mac ops nowMs) n.ctx.core.finished [] := by
  unfold Engine.finishCommand
  rw [if_neg (by simp [active])]
  dsimp only
  generalize recorded : ({n with ctx := _} : Engine σ) = m
  have acked : Effect mac (Answers n.ctx.id n.ctx.ctxId ⟨n.ctx.pending.seq,n.ctx.pending.result.code,n.ctx.pending.detail⟩) n
      (m.sendFreshAck mac ops n.ctx.pending.peer n.ctx.pending.seq n.ctx.pending.result n.ctx.pending.detail) n.ctx.core.finished [] := by
    have sent := sendFreshAck_effect mac ops m n.ctx.pending.peer n.ctx.pending.seq n.ctx.pending.result n.ctx.pending.detail
    subst recorded
    exact Effect.after _ sent ⟨rfl,rfl,rfl⟩
  split
  · exact acked
  · exact Effect.finish acked (plain_effect mac ops _ _ (sendStatus_sends mac ops _ _ _ _))
  · exact Effect.finish acked (plain_effect mac ops _ _ (sendConfigReadback_sends mac ops _ _))
  · exact acked.before ⟨rfl,rfl,rfl⟩ rfl

-- A COMMAND served from here to there.
def Served (n n' : Engine σ) (seq : Seq) (payload : Bytes) : Prop :=
  ∃ P core made, Outcome n.ctx.core seq payload P core made ∧ Effect mac P n n' core made

variable {mac ops}

theorem Served.after {seq : Seq} {payload : Bytes} (m : Engine σ) (served : Served mac m n' seq payload) (still : Still n m)
    (kept : m.ctx.core = n.ctx.core) : Served mac n n' seq payload := by
  obtain ⟨P,core,made,outcome,effect⟩ := served
  exact ⟨P,core,made,kept ▸ outcome,effect.after m still⟩

theorem Served.before {seq : Seq} {payload : Bytes} (served : Served mac n m seq payload) (still : Still m n')
    (kept : n'.ctx.core = m.ctx.core) : Served mac n n' seq payload := by
  obtain ⟨P,core,made,outcome,effect⟩ := served
  exact ⟨P,core,made,outcome,effect.before still kept⟩

theorem Outcome.of_noAck {c : Core} {seq : Seq} {payload : Bytes} (outcome : Outcome c seq payload P core made) (hdr : Header) (other : Bytes)
    (none : NoAck hdr other) : P hdr other := by
  cases outcome with
  | quiet => exact none
  | deferred => exact none
  | refused => exact answers_of_noAck _ _ _ hdr other none
  | cached => exact answers_of_noAck _ _ _ hdr other none
  | rolled => exact answers_of_noAck _ _ _ hdr other none
  | busy => exact answers_of_noAck _ _ _ hdr other none
  | executed => exact answers_of_noAck _ _ _ hdr other none

-- A report sent ahead of the answer is no answer itself.
theorem Served.following {seq : Seq} {payload : Bytes} (reported : Effect mac NoAck n m n.ctx.core []) (served : Served mac m n' seq payload) :
    Served mac n n' seq payload := by
  obtain ⟨P,core,made,outcome,effect⟩ := served
  have joined := (reported.weaken outcome.of_noAck).trans effect
  rw [List.append_nil] at joined
  exact ⟨P,core,made,reported.core ▸ outcome,joined⟩

theorem Served.quietly {seq : Seq} {payload : Bytes} (still : Still n n') (kept : n'.ctx.core = n.ctx.core) : Served mac n n' seq payload :=
  ⟨_,_,_,.quiet,Still.effect still kept⟩

variable (mac ops)

include ops in
theorem refused_served (n : Engine σ) (peer : NodeId) (seq : Seq) (payload : Bytes) (result : AckResult) (notAccepted : result ≠ .accepted)
    (notCached : result ≠ .duplicateCached) : Served mac n (n.sendAck mac peer seq result 0).2 seq payload :=
  ⟨_,_,_,.refused result notAccepted notCached,sendAck_effect mac ops n peer seq result 0⟩

theorem onRoll_served (n : Engine σ) (hdr : Header) (payload : Bytes) (cmd : Command) (random : RandomFn)
    (parsed : Command.deserialize payload = some cmd) (isRoll : cmd.cmd = cmdRollContext) :
    Served mac n (n.onRoll mac ops hdr cmd random) hdr.seq payload := by
  unfold Engine.onRoll
  split
  · exact refused_served mac ops n _ _ payload _ (by decide) (by decide)
  · split
    · exact refused_served mac ops n _ _ payload _ (by decide) (by decide)
    · rename_i settled
      dsimp only
      refine ⟨_,_,_,.rolled cmd (rollCtxId random n.ctx.ctxId) parsed isRoll (eq_false_of_ne_true settled) (rollCtxId_ne _ _)
        (rollCtxId_ne_zero _ _),?_⟩
      generalize rolled : ({n.confirmPhy.call .rollContext with ctx := _} : Engine σ) = m
      have sent := sendFreshAck_effect mac ops m hdr.src hdr.seq .accepted 0
      subst rolled
      obtain ⟨key,core,calls,outbox⟩ := sent
      exact ⟨key,core,calls,outbox⟩

theorem answerRollOnly_served (n n' : Engine σ) (hdr : Header) (payload : Bytes) (random : RandomFn)
    (answered : n.answerRollOnly mac ops hdr payload random = some n') : Served mac n n' hdr.seq payload := by
  unfold Engine.answerRollOnly at answered
  split at answered
  · cases answered
  · rename_i cmd parsed
    split at answered
    · cases answered
    · rename_i isRoll
      cases answered
      split
      · exact Served.quietly ⟨rfl,rfl,rfl⟩ rfl
      · exact Served.after _ (onRoll_served mac ops _ hdr payload cmd random parsed (not_not.mp isRoll)) ⟨rfl,rfl,rfl⟩ rfl

theorem runCommand_served (n : Engine σ) (hdr : Header) (payload : Bytes) (cmd : Command) (nowMs : UInt32)
    (parsed : Command.deserialize payload = some cmd) (noRoll : cmd.cmd ≠ cmdRollContext) (executes : (n.ctx.gate.check hdr.seq).1.verdict = .execute) :
    Served mac n (Engine.runCommand mac ops (n.setGate (n.ctx.gate.check hdr.seq).2) hdr cmd nowMs) hdr.seq payload := by
  unfold Engine.runCommand
  dsimp only
  let ready := (n.setGate (n.ctx.gate.check hdr.seq).2).confirmPhy
  split
  · rename_i active
    refine ⟨_,_,_,.busy executes active,?_⟩
    let recorded := ready.setGate (ready.ctx.gate.record hdr.seq .actuatorBusy 0).2
    exact Effect.after recorded (sendFreshAck_effect mac ops recorded hdr.src hdr.seq .actuatorBusy 0) ⟨rfl,rfl,rfl⟩
  · rename_i idle
    have idle : n.ctx.core.pending.active = false := eq_false_of_ne_true idle
    let o := (ops.execute ready.app ready.ctx cmd nowMs).1
    let pending : PendingCommand := ⟨true,hdr.src,hdr.seq,cmd.cmd,o.result,o.detail,o.after,nowMs⟩
    let running : Engine σ := {ready.call (.execute cmd) with
      app := (ops.execute ready.app ready.ctx cmd nowMs).2
      ctx := {ready.ctx with executions := ready.ctx.executions + 1,pending := pending}}
    split
    · exact ⟨_,_,_,.deferred cmd pending parsed noRoll executes idle rfl rfl,rfl,rfl,rfl,[],(List.append_nil n.outbox).symm,by simp⟩
    · refine ⟨_,_,_,.executed cmd pending parsed noRoll executes idle rfl rfl,?_⟩
      obtain ⟨key,core,calls,outbox⟩ := finishCommand_effect mac ops running nowMs rfl
      exact ⟨key,core,calls,outbox⟩

theorem onCommand_served (n : Engine σ) (hdr : Header) (payload : Bytes) (random : RandomFn) (nowMs : UInt32) :
    Served mac n (n.onCommand mac ops hdr payload random nowMs) hdr.seq payload := by
  unfold Engine.onCommand
  dsimp only
  split
  · exact Served.quietly ⟨rfl,rfl,rfl⟩ rfl
  · split
    · exact Served.quietly ⟨rfl,rfl,rfl⟩ rfl
    · rename_i cmd parsed
      split
      · exact Served.after _ (refused_served mac ops _ _ _ payload _ (by decide) (by decide)) ⟨rfl,rfl,rfl⟩ rfl
      · split
        · rename_i isRoll
          exact Served.after _ (onRoll_served mac ops _ hdr payload cmd random parsed isRoll) ⟨rfl,rfl,rfl⟩ rfl
        · rename_i noRoll
          generalize readied : ({n with app := _} : Engine σ) = m
          have gated : m.ctx = n.ctx := by rw [← readied]
          refine Served.after m ?_ (by subst readied; exact ⟨rfl,rfl,rfl⟩) (by rw [gated])
          rw [← gated]
          rcases check_cases m.ctx.gate hdr.seq with ⟨executes,_⟩ | ⟨inFlight,same⟩ | ⟨reject,same⟩ | ⟨slot,cached,same,found,settled,result⟩
          · rw [executes]
            exact runCommand_served mac ops m hdr payload cmd nowMs parsed noRoll executes
          · rw [inFlight,same]
            exact Served.quietly ⟨rfl,rfl,rfl⟩ rfl
          · rw [reject,same]
            exact refused_served mac ops m _ _ payload _ (by decide) (by decide)
          · rw [cached,same,result]
            exact ⟨_,_,_,.cached slot found settled,sendAck_effect mac ops m hdr.src hdr.seq _ _⟩

-- The receive ladder on a whole frame of the bridge's own: dropped and counted, refused for its context, or delivered.
theorem receive_own (n : Engine σ) (hdr : Header) (payload : Bytes) (key : NodeKey) (cap : Nat) (bytes : Bytes) (random : RandomFn)
    (nowMs : UInt32) (encoded : encode hdr payload {mac := some mac,nodeKey := some key} cap = .ok bytes) (whole : hdr.fragTotal = 1)
    (keyed : hdr.dst = n.ctx.id → key = n.ctx.key) :
    (∃ counters unhandled, n.receive mac ops bytes random nowMs = {n with ctx := {n.ctx with counters := counters,unhandled := unhandled}}) ∨
    (∃ counters, n.receive mac ops bytes random nowMs =
      Engine.refuseAuthenticated mac {n with ctx := {n.ctx with counters := counters}} (wireHeader hdr) .rejectedCtx) ∨
    (∃ counters, (n.ctx.ctxId ≠ 0 → frameHasMac hdr.type payload = true → hdr.ctxId = n.ctx.ctxId) ∧
      n.receive mac ops bytes random nowMs =
        Engine.deliver mac ops {n with ctx := {n.ctx with counters := counters}} (wireHeader hdr) payload 1 random nowMs) := by
  unfold Engine.receive
  dsimp only
  generalize {n.ctx.counters with rxFrames := _} = counters
  split
  · rename_i head headed
    split
    · rename_i f decoded
      obtain ⟨sameHdr,rfl,accepted⟩ := decodePayload_cases _ _ _ _ _ _ _ _ _ _ encoded headed decoded
      obtain ⟨_,context⟩ | refused | ⟨refused,_⟩ := accepted
      · split
        · exact .inl ⟨_,_,rfl⟩
        · rw [sameHdr,if_pos (by exact whole)]
          exact .inr (.inr ⟨_,context,rfl⟩)
      · cases refused
      · cases refused
    · rename_i body f notOk decoded
      obtain ⟨sameHdr,rfl,failed⟩ := decodePayload_cases _ _ _ _ _ _ _ _ _ _ encoded headed decoded
      split
      · obtain ⟨rfl,_⟩ | rfl | ⟨rfl,notOwn⟩ := failed
        · exact (notOk rfl).elim
        · rw [sameHdr]
          exact .inr (.inl ⟨_,rfl⟩)
        · -- Only another node's frame fails its MAC here, and that one is not answered.
          rw [sameHdr,Engine.refuseAuthenticated]
          dsimp only
          rw [if_pos]
          · exact .inl ⟨_,_,rfl⟩
          · intro mine
            exact notOwn ⟨rfl,congrArg some (keyed mine).symm⟩
      · exact .inl ⟨_,_,rfl⟩
  · exact .inl ⟨_,_,rfl⟩

theorem deliver_served (n : Engine σ) (hdr : Header) (payload : Bytes) (fragments : UInt8) (random : RandomFn) (nowMs : UInt32)
    (typed : hdr.type = .command) : Served mac n (n.deliver mac ops hdr payload fragments random nowMs) hdr.seq payload := by
  have dispatched : ∀ m : Engine σ, Served mac m (m.dispatch mac ops hdr payload fragments random nowMs) hdr.seq payload := by
    intro m
    unfold Engine.dispatch
    dsimp only
    rw [typed]
    dsimp only
    split
    · exact onCommand_served mac ops m hdr payload random nowMs
    · cases answered : m.answerRollOnly mac ops hdr payload random with
      | none => exact Served.quietly ⟨rfl,rfl,rfl⟩ rfl
      | some next => exact answerRollOnly_served mac ops m next hdr payload random answered
  unfold Engine.deliver
  dsimp only
  split
  · let taken : Engine σ := {n with serving := some ⟨hdr,payload⟩}
    have reported : Effect mac NoAck n (taken.sendPhyReverted mac ops hdr.src nowMs) n.ctx.core [] :=
      Effect.after _ ((sendPhyReverted_sends mac ops taken hdr.src nowMs).effect.weaken (noAck_of_plain _)) ⟨rfl,rfl,rfl⟩
    exact Served.before (Served.following reported (dispatched _)) ⟨rfl,rfl,rfl⟩ rfl
  · let taken : Engine σ := {n with serving := some ⟨hdr,payload⟩}
    exact Served.before (Served.after taken (dispatched taken) ⟨rfl,rfl,rfl⟩ rfl) ⟨rfl,rfl,rfl⟩ rfl

-- A COMMAND as the bridge builds it is refused for its context, or served in the context it names.
theorem receive_command (n : Engine σ) (hdr : Header) (payload : Bytes) (key : NodeKey) (cap : Nat) (bytes : Bytes) (random : RandomFn)
    (nowMs : UInt32) (encoded : encode hdr payload {mac := some mac,nodeKey := some key} cap = .ok bytes) (typed : hdr.type = .command)
    (whole : hdr.fragTotal = 1) (context : n.ctx.ctxId ≠ 0) (keyed : hdr.dst = n.ctx.id → key = n.ctx.key) :
    Effect mac (Answers n.ctx.id n.ctx.ctxId ⟨hdr.seq,AckResult.rejectedCtx.code,0⟩) n (n.receive mac ops bytes random nowMs) n.ctx.core [] ∨
    hdr.ctxId = n.ctx.ctxId ∧ Served mac n (n.receive mac ops bytes random nowMs) hdr.seq payload := by
  rcases receive_own mac ops n hdr payload key cap bytes random nowMs encoded whole keyed with
    ⟨counters,unhandled,dropped⟩ | ⟨counters,refused⟩ | ⟨counters,authentic,delivered⟩
  · rw [dropped]
    exact .inl (Still.effect ⟨rfl,rfl,rfl⟩ rfl)
  · rw [refused,Engine.refuseAuthenticated]
    dsimp only
    refine .inl ?_
    split
    · exact Still.effect ⟨rfl,rfl,rfl⟩ rfl
    · rw [if_neg (by simp [typed]),if_neg (by simp [typed])]
      let counted : Engine σ := {n with ctx := {n.ctx with counters := counters}}
      exact Effect.after counted (sendAck_effect mac ops counted hdr.src hdr.seq .rejectedCtx 0) ⟨rfl,rfl,rfl⟩
  · rw [delivered]
    refine .inr ⟨authentic context (by simp [frameHasMac,typeRequiresMac,typed]),?_⟩
    exact Served.after _ (deliver_served mac ops _ (wireHeader hdr) payload 1 random nowMs typed) ⟨rfl,rfl,rfl⟩ rfl

end
end LoraRan.Node
