import LoraRan.Node.Engine

namespace LoraRan.Node
open Protocol Config

section
variable {σ : Type} {mac : Mac} {ops : Application σ}

-- Every call of the application other than a HEX forward. What the application does with them is its own affair.
inductive AppRuns (ops : Application σ) : σ → σ → Prop
  | refl (a) : AppRuns ops a a
  | trans {a b c} : AppRuns ops a b → AppRuns ops b c → AppRuns ops a c
  | onPoll (a c hdr payload nowMs) : AppRuns ops a (ops.onPoll a c hdr payload nowMs).2
  | onPing (a c hdr payload fragments nowMs) : AppRuns ops a (ops.onPing a c hdr payload fragments nowMs).2
  | execute (a c cmd nowMs) : AppRuns ops a (ops.execute a c cmd nowMs).2
  | buildStatus (a c reason nowMs) : AppRuns ops a (ops.buildStatus a c reason nowMs).2
  | buildEvent (a c event detail nowMs) : AppRuns ops a (ops.buildEvent a c event detail nowMs).2
  | configSet (a c entry) : AppRuns ops a (ops.configSet a c entry).2.2
  | configGet (a c id) : AppRuns ops a (ops.configGet a c id).2
  | configList (a c) : AppRuns ops a (ops.configList a c).2
  | configRestoreDefaults (a c) : AppRuns ops a (ops.configRestoreDefaults a c).2
  | withhold (a c what hdr) : AppRuns ops a (ops.withhold a c what hdr).2
  | forceRejectCtx (a c hdr) : AppRuns ops a (ops.forceRejectCtx a c hdr).2
  | freshAck (a c seq) : AppRuns ops a (ops.freshAck a c seq).2

-- What a send can change: frames join the outbox, each encoded under this context's key, and the sequence and
-- report bookkeeping moves. Everything that decides what a node does stays.
structure Sends (mac : Mac) (ops : Application σ) (P : Header → Bytes → Prop) (n n' : Engine σ) : Prop where
  ctx : ∃ txSeq counters owed, n'.ctx = {n.ctx with txSeq := txSeq,counters := counters,configChangeOwed := owed}
  app : AppRuns ops n.app n'.app
  phy : n'.phy = n.phy
  restart : n'.restartOwed = n.restartOwed
  serving : n'.serving = n.serving
  calls : n'.calls = n.calls
  outbox : ∃ frames, n'.outbox = n.outbox ++ frames ∧ ∀ bytes ∈ frames, ∃ hdr payload, P hdr payload ∧
    encode hdr payload {mac := some mac,nodeKey := some n.ctx.key} maxFrame = .ok bytes

variable {P Q : Header → Bytes → Prop} {n n' n'' : Engine σ}

theorem Sends.refl (n : Engine σ) : Sends mac ops P n n :=
  ⟨⟨_,_,_,rfl⟩,.refl _,rfl,rfl,rfl,rfl,[],by simp,by simp⟩

theorem Sends.key (sends : Sends mac ops P n n') : n'.ctx.key = n.ctx.key := by
  obtain ⟨_,_,_,ctx⟩ := sends.ctx
  rw [ctx]

theorem Sends.trans (first : Sends mac ops P n n') (second : Sends mac ops P n' n'') : Sends mac ops P n n'' := by
  obtain ⟨txSeq,counters,owed,ctx⟩ := first.ctx
  obtain ⟨txSeq',counters',owed',ctx'⟩ := second.ctx
  obtain ⟨frames,outbox,made⟩ := first.outbox
  obtain ⟨frames',outbox',made'⟩ := second.outbox
  refine ⟨⟨txSeq',counters',owed',?_⟩,first.app.trans second.app,second.phy.trans first.phy,second.restart.trans first.restart,
    second.serving.trans first.serving,second.calls.trans first.calls,frames ++ frames',?_,?_⟩
  · rw [ctx',ctx]
  · rw [outbox',outbox,List.append_assoc]
  · intro bytes member
    rcases List.mem_append.mp member with early | late
    · exact made bytes early
    · rw [← first.key]
      exact made' bytes late

theorem Sends.weaken (sends : Sends mac ops P n n') (implied : ∀ hdr payload, P hdr payload → Q hdr payload) : Sends mac ops Q n n' := by
  obtain ⟨frames,outbox,made⟩ := sends.outbox
  refine ⟨sends.ctx,sends.app,sends.phy,sends.restart,sends.serving,sends.calls,frames,outbox,?_⟩
  intro bytes member
  obtain ⟨hdr,payload,holds,encoded⟩ := made bytes member
  exact ⟨hdr,payload,implied hdr payload holds,encoded⟩

-- The application's own state is its own affair.
theorem Sends.of_app (app : σ) (moved : AppRuns ops n.app app) (sends : Sends mac ops P {n with app := app} n') : Sends mac ops P n n' :=
  ⟨sends.ctx,moved.trans sends.app,sends.phy,sends.restart,sends.serving,sends.calls,sends.outbox⟩

theorem countDropped_sends (n : Engine σ) : Sends mac ops P n n.countDropped := ⟨⟨_,_,_,rfl⟩,.refl _,rfl,rfl,rfl,rfl,[],by simp [Engine.countDropped],by simp⟩

theorem takeTxSeq_sends (n : Engine σ) : Sends mac ops P n n.takeTxSeq := ⟨⟨_,_,_,rfl⟩,.refl _,rfl,rfl,rfl,rfl,[],by simp [Engine.takeTxSeq],by simp⟩

theorem push_sends (n : Engine σ) (hdr : Header) (payload bytes : Bytes) (holds : P hdr payload)
    (encoded : encode hdr payload {mac := some mac,nodeKey := some n.ctx.key} maxFrame = .ok bytes) : Sends mac ops P n (n.push bytes) := by
  refine ⟨⟨_,_,_,rfl⟩,.refl _,rfl,rfl,rfl,rfl,?_⟩
  by_cases full : n.outbox.length = outboxDepth ∨ outFrameMax < bytes.length
  · exact ⟨[],by simp [Engine.push,full],by simp⟩
  · refine ⟨[bytes],by simp [Engine.push,full],?_⟩
    intro other member
    obtain rfl := List.mem_singleton.mp member
    exact ⟨hdr,payload,holds,encoded⟩

theorem encodeFragment_parts (hdr : Header) (payload : Bytes) (index : UInt8) (chunk : Nat) (ctx : EncodeCtx) (cap : Nat) (bytes : Bytes)
    (encoded : encodeFragment hdr payload index chunk ctx cap = .ok bytes) :
    ∃ total piece, encode (hdr.setFrag index total) piece ctx cap = .ok bytes := by
  unfold encodeFragment at encoded
  split at encoded
  · cases encoded
  · dsimp only at encoded
    generalize (if chunk = 0 then defaultFragChunk hdr.type else chunk) = step at encoded
    split at encoded
    · cases encoded
    · split at encoded
      · cases encoded
      · split at encoded
        · cases encoded
        · exact ⟨_,_,encoded⟩

theorem sendFragments_sends (n : Engine σ) (hdr : Header) (payload : Bytes) (chunk left i : Nat)
    (holds : ∀ index total piece, P (hdr.setFrag index total) piece) : Sends mac ops P n (n.sendFragments mac hdr payload chunk left i).2 := by
  induction left generalizing n i with
  | zero => exact Sends.refl n
  | succ left ih =>
      unfold Engine.sendFragments
      split
      · exact Sends.refl n
      · rename_i bytes encoded
        obtain ⟨total,piece,encoded⟩ := encodeFragment_parts _ _ _ _ _ _ _ encoded
        exact (push_sends n _ _ bytes (holds _ total piece) encoded).trans (ih (n.push bytes) (i + 1))

-- A message sent whole; nothing is cut when the chunk is zero.
theorem send_whole (n : Engine σ) (hdr : Header) (payload : Bytes) (holds : P hdr payload) : Sends mac ops P n (n.send mac hdr payload 0).2 := by
  unfold Engine.send
  rw [if_pos (.inl rfl)]
  split
  · exact Sends.refl n
  · split
    · exact Sends.refl n
    · rename_i bytes encoded
      exact push_sends n hdr payload bytes holds encoded

theorem send_sends (n : Engine σ) (hdr : Header) (payload : Bytes) (chunk : UInt8) (whole : P hdr payload)
    (cut : ∀ index total piece, P (hdr.setFrag index total) piece) : Sends mac ops P n (n.send mac hdr payload chunk).2 := by
  unfold Engine.send
  split
  · split
    · exact Sends.refl n
    · split
      · exact Sends.refl n
      · rename_i bytes encoded
        exact push_sends n hdr payload bytes whole encoded
  · dsimp only
    split
    · exact Sends.refl n
    · exact sendFragments_sends n hdr payload _ _ _ cut

-- Frames by what they say. A context's own headers name its id and its context.
def PlainFrame (c : Context) (hdr : Header) (_ : Bytes) : Prop :=
  hdr.src = c.id ∧ hdr.ctxId = c.ctxId ∧ hdr.type ∈ [MsgType.status,.event,.configAck,.ping]

def AckFrame (c : Context) (peer : NodeId) (ack : CommandAck) (hdr : Header) (payload : Bytes) : Prop :=
  (∃ seq, hdr = c.header .commandAck peer schemaNone seq) ∧ payload = ack.serialize

def HexRspFrame (c : Context) (peer : NodeId) (seq : Seq) (status : HexStatus) (hex : Bytes) (hdr : Header) (payload : Bytes) : Prop :=
  hdr = c.header .hexRsp peer schemaNone seq ∧ payload = HexRsp.serialize ⟨status.code,hex⟩

theorem Sends.header (sends : Sends mac ops P n n') (type : MsgType) (dst : NodeId) (schema : SchemaId) (seq : Seq) :
    n'.ctx.header type dst schema seq = n.ctx.header type dst schema seq := by
  obtain ⟨_,_,_,ctx⟩ := sends.ctx
  rw [ctx]
  rfl

theorem plainFrame_of_sends (sends : Sends mac ops P n n') : PlainFrame n'.ctx = PlainFrame n.ctx := by
  obtain ⟨_,_,_,ctx⟩ := sends.ctx
  funext hdr payload
  rw [ctx]
  rfl

theorem ackFrame_of_sends (sends : Sends mac ops P n n') (peer : NodeId) (ack : CommandAck) :
    AckFrame n'.ctx peer ack = AckFrame n.ctx peer ack := by
  obtain ⟨_,_,_,ctx⟩ := sends.ctx
  funext hdr payload
  rw [ctx]
  rfl

-- One lemma for each send of the engine.

variable (mac ops)

theorem sendAck_sends (n : Engine σ) (peer : NodeId) (seq : Seq) (result : AckResult) (detail : UInt8) :
    Sends mac ops (AckFrame n.ctx peer ⟨seq,result.code,detail⟩) n (n.sendAck mac peer seq result detail).2 := by
  have sent : Sends mac ops (AckFrame n.ctx peer ⟨seq,result.code,detail⟩) n
      (n.takeTxSeq.send mac (n.ctx.header .commandAck peer schemaNone n.ctx.txSeq) (CommandAck.serialize ⟨seq,result.code,detail⟩) 0).2 :=
    (takeTxSeq_sends n).trans (send_whole _ _ _ ⟨⟨_,rfl⟩,rfl⟩)
  unfold Engine.sendAck
  dsimp only
  split
  · exact sent
  · exact sent.trans (countDropped_sends _)

theorem sendFreshAck_sends (n : Engine σ) (peer : NodeId) (seq : Seq) (result : AckResult) (detail : UInt8) :
    Sends mac ops (AckFrame n.ctx peer ⟨seq,result.code,detail⟩) n (n.sendFreshAck mac ops peer seq result detail) := by
  have once := sendAck_sends mac ops {n with app := (ops.freshAck n.app n.ctx seq).2} peer seq result detail
  unfold Engine.sendFreshAck
  dsimp only
  split
  · exact Sends.of_app _ (.freshAck n.app n.ctx seq) (Sends.refl _)
  · exact Sends.of_app _ (.freshAck n.app n.ctx seq) once
  · have again := sendAck_sends mac ops (Engine.sendAck mac {n with app := (ops.freshAck n.app n.ctx seq).2} peer seq result detail).2
      peer seq result detail
    rw [ackFrame_of_sends once] at again
    exact Sends.of_app _ (.freshAck n.app n.ctx seq) (once.trans again)

theorem sendStatus_sends (n : Engine σ) (dst : NodeId) (reason : StatusReason) (nowMs : UInt32) :
    Sends mac ops (PlainFrame n.ctx) n (n.sendStatus mac ops dst reason nowMs).2 := by
  unfold Engine.sendStatus
  dsimp only
  generalize (n.ctx.configChangeOwed && reason == .pollResponse) = reportChange
  generalize (if reportChange = true then StatusReason.configChange else reason) = why
  have taken : Sends mac ops (PlainFrame n.ctx) n (Engine.takeTxSeq {n with app := (ops.buildStatus n.app n.ctx why nowMs).2}) :=
    Sends.of_app _ (.buildStatus n.app n.ctx why nowMs) (takeTxSeq_sends _)
  have sent := taken.trans (send_whole (Engine.takeTxSeq {n with app := (ops.buildStatus n.app n.ctx why nowMs).2})
    (n.ctx.header .status dst (ops.buildStatus n.app n.ctx why nowMs).1.2 n.ctx.txSeq) (ops.buildStatus n.app n.ctx why nowMs).1.1
    ⟨rfl,rfl,by simp [Context.header]⟩)
  split
  · exact taken.trans (countDropped_sends _)
  · split
    · exact sent.trans (countDropped_sends _)
    · split
      · refine sent.trans ⟨⟨_,_,_,rfl⟩,.refl _,rfl,rfl,rfl,rfl,[],by simp,by simp⟩
      · exact sent

theorem sendEvent_sends (n : Engine σ) (dst : NodeId) (payload : Bytes) (schema : SchemaId) :
    Sends mac ops (PlainFrame n.ctx) n (n.sendEvent mac dst payload schema).2 :=
  (takeTxSeq_sends n).trans (send_whole _ _ _ ⟨rfl,rfl,by simp [Context.header]⟩)

theorem sendConfigAck_sends (n : Engine σ) (dst : NodeId) (ack : NodeConfigAckV1) (replySeq : Option Seq) :
    Sends mac ops (PlainFrame n.ctx) n (n.sendConfigAck mac dst ack replySeq).2 := by
  unfold Engine.sendConfigAck
  split
  · exact Sends.refl n
  · rename_i payload _
    have taken : Sends mac ops (PlainFrame n.ctx) n (if replySeq.isNone then n.takeTxSeq else n) := by
      split
      · exact takeTxSeq_sends n
      · exact Sends.refl n
    dsimp only
    generalize (if replySeq.isNone then n.takeTxSeq else n) = m at taken ⊢
    have sent := taken.trans (send_whole m (n.ctx.header .configAck dst schemaNodeConfigV1 (replySeq.getD n.ctx.txSeq)) payload
      ⟨rfl,rfl,by simp [Context.header]⟩)
    split
    · exact sent
    · exact sent.trans (countDropped_sends _)

theorem sendMessages_sends (n : Engine σ) (dst : NodeId) (answer : ConfigAnswer) (replySeq : Option Seq)
    (messages : List (List ConfigAckEntry)) : Sends mac ops (PlainFrame n.ctx) n (n.sendMessages mac dst answer replySeq messages).2 := by
  induction messages generalizing n with
  | nil => exact Sends.refl n
  | cons entries rest ih =>
      unfold Engine.sendMessages
      dsimp only
      have first := sendConfigAck_sends mac ops n dst
        {op := answer.op,moreFollows := !rest.isEmpty,persistStatus := answer.persistStatus.code,entries := entries} replySeq
      split
      · refine first.trans ?_
        rw [← plainFrame_of_sends first]
        exact ih _
      · exact first

theorem sendConfigAnswer_sends (n : Engine σ) (dst : NodeId) (answer : ConfigAnswer) (replySeq : Option Seq) :
    Sends mac ops (PlainFrame n.ctx) n (n.sendConfigAnswer mac dst answer replySeq).2 := by
  unfold Engine.sendConfigAnswer
  dsimp only
  generalize cutMessages _ answer.results = messages
  split
  · exact countDropped_sends n
  · exact sendMessages_sends mac ops n dst answer replySeq _

theorem sendHexRsp_sends (n : Engine σ) (dst : NodeId) (seq : Seq) (status : HexStatus) (hex : Bytes) :
    Sends mac ops (HexRspFrame n.ctx dst seq status hex) n (n.sendHexRsp mac dst seq status hex).2 := by
  unfold Engine.sendHexRsp
  dsimp only
  split
  · exact Sends.refl n
  · have sent : Sends mac ops (HexRspFrame n.ctx dst seq status hex) n
        (n.send mac (n.ctx.header .hexRsp dst schemaNone seq) (HexRsp.serialize ⟨status.code,hex⟩) 0).2 := send_whole _ _ _ ⟨rfl,rfl⟩
    split
    · exact sent
    · exact sent.trans (countDropped_sends _)

theorem sendConfigReadback_sends (n : Engine σ) (dst : NodeId) : Sends mac ops (PlainFrame n.ctx) n (n.sendConfigReadback mac ops dst).2 := by
  have readback : n.applyConfig ops {op := configOpGetAll} 0 =
      (⟨configOpGetAll,({n with app := (ops.configList n.app n.ctx).2} : Engine σ).currentPersist ops,
        sortByParamId ((n.listAll ops).1.take maxResults)⟩,{n with app := (ops.configList n.app n.ctx).2}) := by
    unfold Engine.applyConfig
    rw [if_neg (by decide),if_neg (by decide),if_pos rfl]
    rfl
  unfold Engine.sendConfigReadback
  rw [readback]
  dsimp only
  exact Sends.of_app _ (.configList n.app n.ctx) (sendConfigAnswer_sends mac ops {n with app := (ops.configList n.app n.ctx).2} dst _ none)

theorem answer_sends (n : Engine σ) (nowMs : UInt32) (a : Answer) : Sends mac ops (PlainFrame n.ctx) n (n.answer mac ops nowMs a) := by
  cases a with
  | status dst reason =>
      have sent := sendStatus_sends mac ops n dst reason nowMs
      simp only [Engine.answer]
      split
      · exact sent
      · exact sent.trans (countDropped_sends _)
  | configReadback dst =>
      have sent := sendConfigReadback_sends mac ops n dst
      simp only [Engine.answer]
      split
      · exact sent
      · exact sent.trans (countDropped_sends _)
  | statusFrame dst schema payload =>
      have sent : Sends mac ops (PlainFrame n.ctx) n (n.takeTxSeq.send mac (n.ctx.header .status dst schema n.ctx.txSeq) payload 0).2 :=
        (takeTxSeq_sends n).trans (send_whole _ _ _ ⟨rfl,rfl,by simp [Context.header]⟩)
      simp only [Engine.answer]
      split
      · exact sent
      · exact sent.trans (countDropped_sends _)
  | echo dst seq payload chunk =>
      have sent : Sends mac ops (PlainFrame n.ctx) n (n.send mac (n.ctx.header .ping dst schemaNone seq) payload chunk).2 :=
        send_sends _ _ _ _ ⟨rfl,rfl,by simp [Context.header]⟩ fun _ _ _ => ⟨rfl,rfl,by simp [Context.header,Header.setFrag]⟩
      simp only [Engine.answer]
      split
      · exact sent
      · exact sent.trans (countDropped_sends _)

theorem answers_sends (n : Engine σ) (nowMs : UInt32) (answers : List Answer) :
    Sends mac ops (PlainFrame n.ctx) n (answers.foldl (fun n a => n.answer mac ops nowMs a) n) := by
  induction answers generalizing n with
  | nil => exact Sends.refl n
  | cons a rest ih =>
      have first := answer_sends mac ops n nowMs a
      refine first.trans ?_
      rw [← plainFrame_of_sends first]
      exact ih _

theorem sendPhyReverted_sends (n : Engine σ) (dst : NodeId) (nowMs : UInt32) :
    Sends mac ops (PlainFrame n.ctx) {n with ctx := {n.ctx with phyRevertDetail := 0}} (n.sendPhyReverted mac ops dst nowMs) := by
  let cleared : Context := {n.ctx with phyRevertDetail := 0}
  let built := ops.buildEvent n.app cleared .phyReverted n.ctx.phyRevertDetail nowMs
  have moved : AppRuns ops n.app built.2 := .buildEvent n.app cleared _ _ nowMs
  have sent := sendEvent_sends mac ops ({n with ctx := cleared,app := built.2} : Engine σ) dst built.1.1 built.1.2
  unfold Engine.sendPhyReverted
  dsimp only
  split
  · exact Sends.of_app _ moved (countDropped_sends _)
  · split
    · exact Sends.of_app _ moved sent
    · exact Sends.of_app _ moved (sent.trans (countDropped_sends _))

end
end LoraRan.Node
