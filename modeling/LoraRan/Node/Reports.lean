import LoraRan.Node.Sends
import LoraRan.Protocol.RoundTrip

namespace LoraRan.Node
open Protocol Config

section
variable {σ : Type}

-- A STATUS that carries CONFIG_CHANGE, as the application builds it.
def ChangeReport (mac : Mac) (ops : Application σ) (key : NodeKey) (bytes : Bytes) : Prop :=
  ∃ app ctx nowMs hdr, hdr.type = .status ∧ hdr.schema = (ops.buildStatus app ctx .configChange nowMs).1.2 ∧
    encode hdr (ops.buildStatus app ctx .configChange nowMs).1.1 {mac := some mac,nodeKey := some key} maxFrame = .ok bytes

-- A STATUS of one reason is a frame `P` admits.
def Tells (ops : Application σ) (P : Header → Bytes → Prop) (reason : StatusReason) : Prop :=
  ∀ app ctx nowMs hdr, hdr.type = .status → hdr.schema = (ops.buildStatus app ctx reason nowMs).1.2 →
    P hdr (ops.buildStatus app ctx reason nowMs).1.1

def Says (ops : Application σ) (P : Header → Bytes → Prop) : Answer → Prop
  | .status _ reason => Tells ops P reason
  | .configReadback _ => True
  | .statusFrame _ schema payload => ∀ hdr, hdr.type = .status → hdr.schema = schema → P hdr payload
  | .echo _ _ _ _ => ∀ hdr payload, hdr.type = .ping → P hdr payload

-- `P` admits what the handlers send. A STATUS turns into a CONFIG_CHANGE only where `C` allows one to be owed.
structure Voices (ops : Application σ) (C : Prop) (P : Header → Bytes → Prop) : Prop where
  ack : ∀ hdr payload, hdr.type = .commandAck → P hdr payload
  configAck : ∀ hdr payload, hdr.type = .configAck → P hdr payload
  hexRsp : ∀ hdr payload, hdr.type = .hexRsp → P hdr payload
  status : Tells ops P .pollResponse
  change : C → Tells ops P .configChange

-- A step that loses nothing owed: the revert still to be reported stays, and so does an owed CONFIG_CHANGE until a frame that
-- carries it is queued.
structure Owes (mac : Mac) (ops : Application σ) (P : Header → Bytes → Prop) (n n' : Engine σ) : Prop where
  key : n'.ctx.key = n.ctx.key
  revert : n'.ctx.phyRevertDetail = n.ctx.phyRevertDetail
  owed : n.ctx.configChangeOwed = false → n'.ctx.configChangeOwed = false
  outbox : ∃ frames, n'.outbox = n.outbox ++ frames ∧
    (∀ bytes ∈ frames, ∃ hdr payload, P hdr payload ∧ encode hdr payload {mac := some mac,nodeKey := some n.ctx.key} maxFrame = .ok bytes) ∧
    (n.ctx.configChangeOwed = true → n'.ctx.configChangeOwed = false → ∃ bytes ∈ frames, ChangeReport mac ops n.ctx.key bytes)

-- The same of a step of the engine's own, which leaves the receive side's chunk alone as well.
structure Keeps (mac : Mac) (ops : Application σ) (P : Header → Bytes → Prop) (n n' : Engine σ) : Prop where
  owes : Owes mac ops P n n'
  rxChunk : n'.ctx.rxChunk = n.ctx.rxChunk

variable {mac : Mac} {ops : Application σ} {C : Prop} {P : Header → Bytes → Prop} {n m n' : Engine σ}

theorem Owes.quiet (n n' : Engine σ) (key : n'.ctx.key = n.ctx.key) (revert : n'.ctx.phyRevertDetail = n.ctx.phyRevertDetail)
    (owed : n'.ctx.configChangeOwed = n.ctx.configChangeOwed) (outbox : n'.outbox = n.outbox) : Owes mac ops P n n' := by
  refine ⟨key,revert,fun off => owed.trans off,[],by rw [outbox,List.append_nil],fun _ member => (by cases member),?_⟩
  intro on off
  rw [owed,on] at off
  cases off

theorem Owes.trans (first : Owes mac ops P n m) (second : Owes mac ops P m n') : Owes mac ops P n n' := by
  obtain ⟨frames,outbox,said,told⟩ := first.outbox
  obtain ⟨frames',outbox',said',told'⟩ := second.outbox
  rw [first.key] at said' told'
  refine ⟨second.key.trans first.key,second.revert.trans first.revert,fun off => second.owed (first.owed off),frames ++ frames',
    by rw [outbox',outbox,List.append_assoc],?_,?_⟩
  · intro bytes member
    rcases List.mem_append.mp member with early | late
    · exact said bytes early
    · exact said' bytes late
  · intro on off
    cases still : m.ctx.configChangeOwed with
    | true =>
      obtain ⟨bytes,member,report⟩ := told' still off
      exact ⟨bytes,List.mem_append_right _ member,report⟩
    | false =>
      obtain ⟨bytes,member,report⟩ := told on still
      exact ⟨bytes,List.mem_append_left _ member,report⟩

theorem Keeps.quiet (n n' : Engine σ) (key : n'.ctx.key = n.ctx.key) (rxChunk : n'.ctx.rxChunk = n.ctx.rxChunk)
    (revert : n'.ctx.phyRevertDetail = n.ctx.phyRevertDetail) (owed : n'.ctx.configChangeOwed = n.ctx.configChangeOwed)
    (outbox : n'.outbox = n.outbox) : Keeps mac ops P n n' := ⟨Owes.quiet n n' key revert owed outbox,rxChunk⟩

theorem Keeps.refl (n : Engine σ) : Keeps mac ops P n n := Keeps.quiet n n rfl rfl rfl rfl rfl

theorem Keeps.trans (first : Keeps mac ops P n m) (second : Keeps mac ops P m n') : Keeps mac ops P n n' :=
  ⟨first.owes.trans second.owes,second.rxChunk.trans first.rxChunk⟩

-- A send that leaves an owed CONFIG_CHANGE alone.
structure Posts (mac : Mac) (ops : Application σ) (P : Header → Bytes → Prop) (n n' : Engine σ) : Prop where
  sends : Sends mac ops P n n'
  owed : n'.ctx.configChangeOwed = n.ctx.configChangeOwed

theorem Posts.keeps (posts : Posts mac ops P n n') : Keeps mac ops P n n' := by
  obtain ⟨_,_,_,ctx⟩ := posts.sends.ctx
  obtain ⟨frames,outbox,said⟩ := posts.sends.outbox
  refine ⟨⟨by rw [ctx],by rw [ctx],fun off => posts.owed.trans off,frames,outbox,said,?_⟩,by rw [ctx]⟩
  intro on off
  rw [posts.owed,on] at off
  cases off

theorem Posts.trans (first : Posts mac ops P n m) (second : Posts mac ops P m n') : Posts mac ops P n n' :=
  ⟨first.sends.trans second.sends,second.owed.trans first.owed⟩

theorem Posts.refl (n : Engine σ) : Posts mac ops P n n := ⟨Sends.refl n,rfl⟩

theorem countDropped_posts (n : Engine σ) : Posts mac ops P n n.countDropped := ⟨countDropped_sends n,rfl⟩

theorem takeTxSeq_posts (n : Engine σ) : Posts mac ops P n n.takeTxSeq := ⟨takeTxSeq_sends n,rfl⟩

theorem encode_length (hdr : Header) (payload : Bytes) (ctx : EncodeCtx) (cap : Nat) (bytes : Bytes)
    (encoded : encode hdr payload ctx cap = .ok bytes) : bytes.length ≤ cap := by
  obtain ⟨admitted,room,tag,made,rfl⟩ := encode_parts hdr payload ctx cap bytes encoded
  rw [frameLen_eq _ _ admitted.fits] at room
  rw [withCrc_length,List.length_append,List.length_append,writeHeader_length,macField_length _ _ _ _ made]
  exact room

-- A whole frame that was sent stands in the outbox.
theorem send_queued (mac : Mac) (n : Engine σ) (hdr : Header) (payload : Bytes) (queued : (n.send mac hdr payload 0).1 = true) :
    ∃ bytes, (n.send mac hdr payload 0).2.outbox = n.outbox ++ [bytes] ∧
      encode hdr payload {mac := some mac,nodeKey := some n.ctx.key} maxFrame = .ok bytes := by
  unfold Engine.send at queued ⊢
  rw [if_pos (.inl rfl)] at queued ⊢
  split at queued
  · cases queued
  · rename_i free
    rw [if_neg free]
    split at queued
    · cases queued
    · rename_i bytes encoded
      rw [encoded]
      refine ⟨bytes,?_,rfl⟩
      have length := encode_length hdr payload _ _ bytes encoded
      unfold Engine.freeSlots at free
      unfold Engine.push
      dsimp only
      rw [if_neg]
      simp only [outboxDepth,outFrameMax,maxFrame] at *
      omega

theorem send_encoded (mac : Mac) (n : Engine σ) (hdr : Header) (payload bytes : Bytes) (free : 1 ≤ n.freeSlots)
    (encoded : encode hdr payload {mac := some mac,nodeKey := some n.ctx.key} maxFrame = .ok bytes) :
    n.send mac hdr payload 0 = (true,n.push bytes) ∧ (n.push bytes).outbox = n.outbox ++ [bytes] := by
  have length := encode_length hdr payload _ _ bytes encoded
  have room : ¬ (n.outbox.length = outboxDepth ∨ outFrameMax < bytes.length) := by
    simp only [Engine.freeSlots,outboxDepth,outFrameMax,maxFrame] at *
    omega
  refine ⟨?_,if_neg room⟩
  unfold Engine.send
  rw [if_pos (.inl rfl),if_neg (by omega),encoded]

theorem sendFragments_owed (n : Engine σ) (hdr : Header) (payload : Bytes) (chunk left i : Nat) :
    (n.sendFragments mac hdr payload chunk left i).2.ctx.configChangeOwed = n.ctx.configChangeOwed := by
  induction left generalizing n i with
  | zero => rfl
  | succ left ih =>
    unfold Engine.sendFragments
    split
    · rfl
    · exact ih _ _

theorem send_owed (n : Engine σ) (hdr : Header) (payload : Bytes) (chunk : UInt8) :
    (n.send mac hdr payload chunk).2.ctx.configChangeOwed = n.ctx.configChangeOwed := by
  unfold Engine.send
  split
  · split
    · rfl
    · split <;> rfl
  · dsimp only
    split
    · rfl
    · exact sendFragments_owed n hdr payload _ _ _

theorem send_posts (n : Engine σ) (hdr : Header) (payload : Bytes) (holds : P hdr payload) : Posts mac ops P n (n.send mac hdr payload 0).2 :=
  ⟨send_whole n hdr payload holds,send_owed n hdr payload 0⟩

theorem sendCut_posts (n : Engine σ) (hdr : Header) (payload : Bytes) (chunk : UInt8) (whole : P hdr payload)
    (cut : ∀ index total piece, P (hdr.setFrag index total) piece) : Posts mac ops P n (n.send mac hdr payload chunk).2 :=
  ⟨send_sends n hdr payload chunk whole cut,send_owed n hdr payload chunk⟩

variable (mac ops)

theorem sendAck_posts (voices : Voices ops C P) (n : Engine σ) (peer : NodeId) (seq : Seq) (result : AckResult) (detail : UInt8) :
    Posts mac ops P n (n.sendAck mac peer seq result detail).2 := by
  have sent : Posts mac ops P n (n.takeTxSeq.send mac (n.ctx.header .commandAck peer schemaNone n.ctx.txSeq)
      (CommandAck.serialize ⟨seq,result.code,detail⟩) 0).2 := (takeTxSeq_posts n).trans (send_posts _ _ _ (voices.ack _ _ rfl))
  unfold Engine.sendAck
  dsimp only
  split
  · exact sent
  · exact sent.trans (countDropped_posts _)

theorem sendFreshAck_keeps (voices : Voices ops C P) (n : Engine σ) (peer : NodeId) (seq : Seq) (result : AckResult) (detail : UInt8) :
    Keeps mac ops P n (n.sendFreshAck mac ops peer seq result detail) := by
  let asked : Engine σ := {n with app := (ops.freshAck n.app n.ctx seq).2}
  have asking : Keeps mac ops P n asked := Keeps.quiet _ _ rfl rfl rfl rfl rfl
  have once := sendAck_posts mac ops voices asked peer seq result detail
  unfold Engine.sendFreshAck
  dsimp only
  split
  · exact asking
  · exact asking.trans once.keeps
  · exact asking.trans (once.trans (sendAck_posts mac ops voices _ peer seq result detail)).keeps

theorem sendEvent_posts (n : Engine σ) (dst : NodeId) (payload : Bytes) (schema : SchemaId)
    (holds : ∀ hdr, hdr.type = .event → hdr.schema = schema → P hdr payload) : Posts mac ops P n (n.sendEvent mac dst payload schema).2 :=
  (takeTxSeq_posts n).trans (send_posts _ _ _ (holds _ rfl rfl))

-- A STATUS: with a CONFIG_CHANGE owed a poll's answer becomes the report, and the debt is paid only if it was queued.
theorem sendStatus_keeps (n : Engine σ) (dst : NodeId) (reason : StatusReason) (nowMs : UInt32) (tells : Tells ops P reason)
    (change : reason = .pollResponse → n.ctx.configChangeOwed = true → Tells ops P .configChange) :
    Keeps mac ops P n (n.sendStatus mac ops dst reason nowMs).2 := by
  unfold Engine.sendStatus
  dsimp only
  cases reports : n.ctx.configChangeOwed && reason == .pollResponse with
  | false =>
    rw [if_neg Bool.false_ne_true]
    let built : Engine σ := {n with app := (ops.buildStatus n.app n.ctx reason nowMs).2}
    have building : Keeps mac ops P n built := Keeps.quiet _ _ rfl rfl rfl rfl rfl
    have sent : Posts mac ops P built (built.takeTxSeq.send mac (n.ctx.header .status dst (ops.buildStatus n.app n.ctx reason nowMs).1.2
        n.ctx.txSeq) (ops.buildStatus n.app n.ctx reason nowMs).1.1 0).2 :=
      (takeTxSeq_posts built).trans (send_posts _ _ _ (tells n.app n.ctx nowMs _ rfl rfl))
    split
    · exact building.trans ((takeTxSeq_posts built).trans (countDropped_posts _)).keeps
    · split
      · exact building.trans (sent.trans (countDropped_posts _)).keeps
      · rw [if_neg Bool.false_ne_true]
        exact building.trans sent.keeps
  | true =>
    rw [if_pos rfl]
    obtain ⟨on,polled⟩ := Bool.and_eq_true_iff.mp reports
    have admitted := change (beq_iff_eq.mp polled) on
    let built : Engine σ := {n with app := (ops.buildStatus n.app n.ctx .configChange nowMs).2}
    have building : Keeps mac ops P n built := Keeps.quiet _ _ rfl rfl rfl rfl rfl
    have sent : Posts mac ops P built (built.takeTxSeq.send mac (n.ctx.header .status dst (ops.buildStatus n.app n.ctx .configChange nowMs).1.2
        n.ctx.txSeq) (ops.buildStatus n.app n.ctx .configChange nowMs).1.1 0).2 :=
      (takeTxSeq_posts built).trans (send_posts _ _ _ (admitted n.app n.ctx nowMs _ rfl rfl))
    split
    · exact building.trans ((takeTxSeq_posts built).trans (countDropped_posts _)).keeps
    · split
      · exact building.trans (sent.trans (countDropped_posts _)).keeps
      · rename_i queued
        rw [if_pos rfl]
        obtain ⟨bytes,outbox,encoded⟩ := send_queued mac built.takeTxSeq _ _ (by simpa using queued)
        obtain ⟨_,_,_,ctx⟩ := sent.sends.ctx
        refine ⟨⟨?_,?_,fun _ => rfl,[bytes],outbox,?_,?_⟩,?_⟩
        · rw [ctx]
        · rw [ctx]
        · intro b member
          rw [List.mem_singleton.mp member]
          exact ⟨_,_,admitted n.app n.ctx nowMs _ rfl rfl,encoded⟩
        · intro _ _
          exact ⟨bytes,List.mem_singleton_self _,n.app,n.ctx,nowMs,_,rfl,rfl,encoded⟩
        · rw [ctx]

theorem sendConfigAck_posts (voices : Voices ops C P) (n : Engine σ) (dst : NodeId) (ack : NodeConfigAckV1) (replySeq : Option Seq) :
    Posts mac ops P n (n.sendConfigAck mac dst ack replySeq).2 := by
  unfold Engine.sendConfigAck
  split
  · exact Posts.refl n
  · rename_i payload _
    have taken : Posts mac ops P n (if replySeq.isNone then n.takeTxSeq else n) := by
      split
      · exact takeTxSeq_posts n
      · exact Posts.refl n
    dsimp only
    generalize (if replySeq.isNone then n.takeTxSeq else n) = m at taken ⊢
    have sent := taken.trans (send_posts m (n.ctx.header .configAck dst schemaNodeConfigV1 (replySeq.getD n.ctx.txSeq)) payload
      (voices.configAck _ _ rfl))
    split
    · exact sent
    · exact sent.trans (countDropped_posts _)

theorem sendMessages_posts (voices : Voices ops C P) (n : Engine σ) (dst : NodeId) (answer : ConfigAnswer) (replySeq : Option Seq)
    (messages : List (List ConfigAckEntry)) : Posts mac ops P n (n.sendMessages mac dst answer replySeq messages).2 := by
  induction messages generalizing n with
  | nil => exact Posts.refl n
  | cons entries rest ih =>
    unfold Engine.sendMessages
    dsimp only
    have first := sendConfigAck_posts mac ops voices n dst
      {op := answer.op,moreFollows := !rest.isEmpty,persistStatus := answer.persistStatus.code,entries := entries} replySeq
    split
    · exact first.trans (ih _)
    · exact first

theorem sendConfigAnswer_posts (voices : Voices ops C P) (n : Engine σ) (dst : NodeId) (answer : ConfigAnswer) (replySeq : Option Seq) :
    Posts mac ops P n (n.sendConfigAnswer mac dst answer replySeq).2 := by
  unfold Engine.sendConfigAnswer
  dsimp only
  generalize cutMessages _ answer.results = messages
  split
  · exact countDropped_posts n
  · exact sendMessages_posts mac ops voices n dst answer replySeq _

theorem sendHexRsp_posts (voices : Voices ops C P) (n : Engine σ) (dst : NodeId) (seq : Seq) (status : HexStatus) (hex : Bytes) :
    Posts mac ops P n (n.sendHexRsp mac dst seq status hex).2 := by
  unfold Engine.sendHexRsp
  dsimp only
  split
  · exact Posts.refl n
  · have sent : Posts mac ops P n (n.send mac (n.ctx.header .hexRsp dst schemaNone seq) (HexRsp.serialize ⟨status.code,hex⟩) 0).2 :=
      send_posts n _ _ (voices.hexRsp _ _ rfl)
    split
    · exact sent
    · exact sent.trans (countDropped_posts _)

theorem tune_keeps (n : Engine σ) (tunings : List Tuning) : Keeps mac ops P n (n.tune tunings) := by
  induction tunings generalizing n with
  | nil => exact Keeps.refl n
  | cons tuning rest ih =>
    refine Keeps.trans ?_ (ih {n with ctx := tuning.apply n.ctx})
    cases tuning with
    | cacheDepth depth => exact Keeps.quiet _ _ rfl rfl rfl rfl rfl
    | fragTimeoutMs ms => exact Keeps.quiet _ _ rfl rfl rfl rfl rfl

theorem setEntries_keeps (n : Engine σ) (entries : List ConfigEntry) : Keeps mac ops P n (n.setEntries ops entries).2 := by
  induction entries generalizing n with
  | nil => exact Keeps.refl n
  | cons entry rest ih =>
    unfold Engine.setEntries
    dsimp only
    refine Keeps.trans ?_ (ih _)
    unfold Engine.setEntry
    split
    · exact Keeps.quiet _ _ rfl rfl rfl rfl rfl
    · let noted : Engine σ := {n.call (.configSet entry) with app := (ops.configSet n.app n.ctx entry).2.2}
      have noting : Keeps mac ops P n noted := Keeps.quiet _ _ rfl rfl rfl rfl rfl
      exact noting.trans (tune_keeps mac ops noted _)

theorem getEntries_keeps (n : Engine σ) (entries : List ConfigEntry) : Keeps mac ops P n (n.getEntries ops entries).2 := by
  induction entries generalizing n with
  | nil => exact Keeps.refl n
  | cons entry rest ih =>
    unfold Engine.getEntries
    dsimp only
    refine Keeps.trans ?_ (ih _)
    unfold Engine.getEntry
    split
    · exact Keeps.refl n
    · exact Keeps.quiet _ _ rfl rfl rfl rfl rfl

theorem applyConfig_keeps (n : Engine σ) (config : NodeConfigV1) (nowMs : UInt32) : Keeps mac ops P n (n.applyConfig ops config nowMs).2 := by
  unfold Engine.applyConfig
  split
  · refine (setEntries_keeps mac ops n config.entries).trans ?_
    dsimp only
    unfold Engine.closeSet
    dsimp only
    split
    · exact Keeps.refl _
    · exact Keeps.quiet _ _ rfl rfl rfl rfl rfl
  · split
    · exact getEntries_keeps mac ops n config.entries
    · split
      · exact Keeps.quiet _ _ rfl rfl rfl rfl rfl
      · split
        · let cleared : Engine σ := {n.call .configRestoreDefaults with app := (ops.configRestoreDefaults n.app n.ctx).2}
          have clearing : Keeps mac ops P n cleared := Keeps.quiet _ _ rfl rfl rfl rfl rfl
          have tuned : Keeps mac ops P n (cleared.tune (ops.configRestoreDefaults n.app n.ctx).1) := clearing.trans (tune_keeps mac ops cleared _)
          exact tuned.trans (Keeps.quiet _ _ rfl rfl rfl rfl rfl)
        · exact Keeps.refl n

theorem sendConfigReadback_keeps (voices : Voices ops C P) (n : Engine σ) (dst : NodeId) :
    Keeps mac ops P n (n.sendConfigReadback mac ops dst).2 := by
  unfold Engine.sendConfigReadback
  dsimp only
  exact (applyConfig_keeps mac ops n _ 0).trans (sendConfigAnswer_posts mac ops voices _ _ _ _).keeps

theorem onConfig_keeps (voices : Voices ops C P) (n : Engine σ) (hdr : Header) (payload : Bytes) (nowMs : UInt32) :
    Keeps mac ops P n (n.onConfig mac ops hdr payload nowMs) := by
  let asked : Engine σ := {n with app := (ops.withhold n.app n.ctx .config hdr).2}
  have asking : Keeps mac ops P n asked := Keeps.quiet _ _ rfl rfl rfl rfl rfl
  have ready : Keeps mac ops P n (asked.setGate (n.ctx.gate.check hdr.seq).2) := asking.trans (Keeps.quiet _ _ rfl rfl rfl rfl rfl)
  unfold Engine.onConfig
  dsimp only
  split
  · exact asking
  · split
    · split
      · rename_i config _
        split
        · refine ready.trans ((applyConfig_keeps mac ops _ config nowMs).trans ?_)
          exact (sendConfigAnswer_posts mac ops voices _ _ _ _).keeps
        · exact ready.trans (sendAck_posts mac ops voices _ _ _ _ _).keeps
      · exact ready.trans (sendAck_posts mac ops voices _ _ _ _ _).keeps
    · exact ready
    · exact ready.trans (sendAck_posts mac ops voices _ _ _ _ _).keeps
    · let confirmed := (asked.setGate (n.ctx.gate.check hdr.seq).2).confirmPhy
      have confirming : Keeps mac ops P n confirmed := ready.trans (Keeps.quiet _ _ rfl rfl rfl rfl rfl)
      split
      · refine confirming.trans (Keeps.trans (m := confirmed.setGate (confirmed.ctx.gate.record hdr.seq .rejectedArg 0).2)
          (Keeps.quiet _ _ rfl rfl rfl rfl rfl) ?_)
        exact (sendConfigAck_posts mac ops voices _ _ _ _).keeps
      · rename_i config _
        let counted : Engine σ := {confirmed with ctx := {confirmed.ctx with executions := confirmed.ctx.executions + 1}}
        have counting : Keeps mac ops P n counted := confirming.trans (Keeps.quiet _ _ rfl rfl rfl rfl rfl)
        let applied := (counted.applyConfig ops config nowMs).2
        refine counting.trans ((applyConfig_keeps mac ops counted config nowMs).trans ?_)
        refine Keeps.trans (m := applied.setGate (applied.ctx.gate.record hdr.seq .accepted 0).2) (Keeps.quiet _ _ rfl rfl rfl rfl rfl) ?_
        exact (sendConfigAnswer_posts mac ops voices _ _ _ _).keeps

-- The command waiting to be finished is answered with a STATUS as well.
def FinishesWithStatus (n : Engine σ) : Prop := n.ctx.pending.active = true ∧ n.ctx.pending.after = .status

-- A COMMAND the node runs, and answers with a STATUS as well.
def CommandsStatus (n : Engine σ) (hdr : Header) (payload : Bytes) (nowMs : UInt32) : Prop :=
  n.ctx.pending.active = false ∧ (n.ctx.gate.check hdr.seq).1.verdict = .execute ∧
    ∃ cmd, Command.deserialize payload = some cmd ∧ ∃ app ctx, (ops.execute app ctx cmd nowMs).1.after = .status

-- Where no CONFIG_CHANGE is owed, none comes to be.
theorem Keeps.allows (keeps : Keeps mac ops P n m) (allowed : n.ctx.configChangeOwed = true → C) : m.ctx.configChangeOwed = true → C := by
  intro on
  cases before : n.ctx.configChangeOwed with
  | true => exact allowed before
  | false =>
    rw [keeps.owes.owed before] at on
    cases on

theorem finishCommand_keeps (voices : Voices ops C P) (n : Engine σ) (nowMs : UInt32)
    (allowed : FinishesWithStatus n → n.ctx.configChangeOwed = true → C) : Keeps mac ops P n (n.finishCommand mac ops nowMs) := by
  unfold Engine.finishCommand
  split
  · exact Keeps.refl n
  · rename_i active
    dsimp only
    generalize recorded : ({n with ctx := _} : Engine σ) = m
    have recording : Keeps mac ops P n m := by
      subst recorded
      exact Keeps.quiet _ _ rfl rfl rfl rfl rfl
    have acked := recording.trans (sendFreshAck_keeps mac ops voices m n.ctx.pending.peer n.ctx.pending.seq n.ctx.pending.result n.ctx.pending.detail)
    split
    · exact acked
    · rename_i after
      have finishes : FinishesWithStatus n := ⟨by simpa using active,after⟩
      exact acked.trans (sendStatus_keeps mac ops _ _ _ _ voices.status fun _ on => voices.change (acked.allows mac ops (allowed finishes) on))
    · exact acked.trans (sendConfigReadback_keeps mac ops voices _ _)
    · exact acked.trans (Keeps.quiet _ _ rfl rfl rfl rfl rfl)

theorem onRoll_keeps (voices : Voices ops C P) (n : Engine σ) (hdr : Header) (cmd : Command) (random : RandomFn) :
    Keeps mac ops P n (n.onRoll mac ops hdr cmd random) := by
  unfold Engine.onRoll
  split
  · exact (sendAck_posts mac ops voices n _ _ _ _).keeps
  · split
    · exact (sendAck_posts mac ops voices n _ _ _ _).keeps
    · let rolled : Engine σ := {n.confirmPhy.call .rollContext with ctx := rollContext n.ctx random}
      have rolling : Keeps mac ops P n rolled := Keeps.quiet _ _ rfl rfl rfl rfl rfl
      exact rolling.trans (sendFreshAck_keeps mac ops voices rolled _ _ _ _)

theorem answerRollOnly_keeps (voices : Voices ops C P) (n n' : Engine σ) (hdr : Header) (payload : Bytes) (random : RandomFn)
    (answered : n.answerRollOnly mac ops hdr payload random = some n') : Keeps mac ops P n n' := by
  unfold Engine.answerRollOnly at answered
  split at answered
  · cases answered
  · rename_i cmd _
    split at answered
    · cases answered
    · cases answered
      let asked : Engine σ := {n with app := (ops.withhold n.app n.ctx .roll hdr).2}
      have asking : Keeps mac ops P n asked := Keeps.quiet _ _ rfl rfl rfl rfl rfl
      split
      · exact asking
      · exact asking.trans (onRoll_keeps mac ops voices asked hdr cmd random)

theorem runCommand_keeps (voices : Voices ops C P) (n : Engine σ) (hdr : Header) (cmd : Command) (nowMs : UInt32)
    (allowed : n.ctx.pending.active = false → (∃ app ctx, (ops.execute app ctx cmd nowMs).1.after = .status) →
      n.ctx.configChangeOwed = true → C) : Keeps mac ops P n (n.runCommand mac ops hdr cmd nowMs) := by
  unfold Engine.runCommand
  dsimp only
  split
  · let recorded := n.confirmPhy.setGate (n.confirmPhy.ctx.gate.record hdr.seq .actuatorBusy 0).2
    have recording : Keeps mac ops P n recorded := Keeps.quiet _ _ rfl rfl rfl rfl rfl
    exact recording.trans (sendFreshAck_keeps mac ops voices _ _ _ _ _)
  · rename_i idle
    split
    · exact Keeps.quiet _ _ rfl rfl rfl rfl rfl
    · refine Keeps.trans (Keeps.quiet _ _ ?_ ?_ ?_ ?_ ?_) (finishCommand_keeps mac ops voices _ nowMs ?_)
      case refine_6 => exact fun finishes => allowed (Bool.eq_false_iff.mpr idle) ⟨_,_,finishes.2⟩
      all_goals rfl

theorem onCommand_keeps (voices : Voices ops C P) (n : Engine σ) (hdr : Header) (payload : Bytes) (random : RandomFn) (nowMs : UInt32)
    (allowed : CommandsStatus ops n hdr payload nowMs → n.ctx.configChangeOwed = true → C) : Keeps mac ops P n (n.onCommand mac ops hdr payload random nowMs) := by
  let asked : Engine σ := {n with app := (ops.withhold n.app n.ctx .command hdr).2}
  have asking : Keeps mac ops P n asked := Keeps.quiet _ _ rfl rfl rfl rfl rfl
  unfold Engine.onCommand
  dsimp only
  split
  · exact asking
  · split
    · exact asking.trans (Keeps.quiet _ _ rfl rfl rfl rfl rfl)
    · rename_i cmd deserialized
      let forced : Engine σ := {asked with app := (ops.forceRejectCtx asked.app n.ctx hdr).2}
      have forcing : Keeps mac ops P n forced := asking.trans (Keeps.quiet _ _ rfl rfl rfl rfl rfl)
      split
      · exact forcing.trans (sendAck_posts mac ops voices _ _ _ _ _).keeps
      · split
        · exact forcing.trans (onRoll_keeps mac ops voices forced hdr cmd random)
        · have gated : Keeps mac ops P n (forced.setGate (n.ctx.gate.check hdr.seq).2) := forcing.trans (Keeps.quiet _ _ rfl rfl rfl rfl rfl)
          split
          · rename_i execute
            refine gated.trans (runCommand_keeps mac ops voices _ hdr cmd nowMs ?_)
            exact fun idle reports => allowed ⟨idle,execute,cmd,deserialized,reports⟩
          · exact gated.trans (sendAck_posts mac ops voices _ _ _ _ _).keeps
          · exact gated
          · exact gated.trans (sendAck_posts mac ops voices _ _ _ _ _).keeps

theorem forwardHex_keeps (voices : Voices ops C P) (n : Engine σ) (hdr : Header) (payload : Bytes) (nowMs : UInt32) :
    Keeps mac ops P n (n.forwardHex mac ops hdr payload nowMs) := by
  unfold Engine.forwardHex
  split
  · exact (sendHexRsp_posts mac ops voices n _ _ _ _).keeps
  · rename_i req _
    split
    · exact (sendHexRsp_posts mac ops voices n _ _ _ _).keeps
    · split
      · exact (sendHexRsp_posts mac ops voices n _ _ _ _).keeps
      · dsimp only
        let forwarded : Engine σ := {n.call (.hexForward req.hex) with app := (ops.hexForward n.app n.ctx req.hex nowMs).2}
        have forwarding : Keeps mac ops P n forwarded := Keeps.quiet _ _ rfl rfl rfl rfl rfl
        split
        · exact forwarding.trans (Keeps.quiet _ _ rfl rfl rfl rfl rfl)
        · exact forwarding.trans (sendHexRsp_posts mac ops voices forwarded _ _ _ _).keeps

theorem onHexReq_keeps (voices : Voices ops C P) (n : Engine σ) (hdr : Header) (payload : Bytes) (nowMs : UInt32) :
    Keeps mac ops P n (n.onHexReq mac ops hdr payload nowMs) := by
  let asked : Engine σ := {n with app := (ops.withhold n.app n.ctx .hexReq hdr).2}
  let counted : Engine σ := {asked with ctx := {asked.ctx with hexRequests := asked.ctx.hexRequests + 1}}
  have counting : Keeps mac ops P n counted := Keeps.quiet _ _ rfl rfl rfl rfl rfl
  unfold Engine.onHexReq
  dsimp only
  split
  · exact Keeps.quiet _ _ rfl rfl rfl rfl rfl
  · split
    · have gated : Keeps mac ops P n (counted.setGate (counted.ctx.gate.check hdr.seq).2) := counting.trans (Keeps.quiet _ _ rfl rfl rfl rfl rfl)
      split
      · let confirmed := (counted.setGate (counted.ctx.gate.check hdr.seq).2).confirmPhy
        have recorded : Keeps mac ops P n (confirmed.setGate (confirmed.ctx.gate.record hdr.seq .accepted 0).2) :=
          gated.trans (Keeps.quiet _ _ rfl rfl rfl rfl rfl)
        exact recorded.trans (forwardHex_keeps mac ops voices _ hdr payload nowMs)
      · exact gated.trans (sendAck_posts mac ops voices _ _ _ _ _).keeps
      · exact gated
      · exact gated.trans (sendAck_posts mac ops voices _ _ _ _ _).keeps
    · exact counting.trans (forwardHex_keeps mac ops voices counted hdr payload nowMs)

theorem answer_keeps (voices : Voices ops C P) (n : Engine σ) (nowMs : UInt32) (a : Answer) (voiced : Says ops P a)
    (allowed : (∃ dst reason, a = .status dst reason) → n.ctx.configChangeOwed = true → C) : Keeps mac ops P n (n.answer mac ops nowMs a) := by
  cases a with
  | status dst reason =>
    have sent := sendStatus_keeps mac ops n dst reason nowMs voiced fun _ on => voices.change (allowed ⟨dst,reason,rfl⟩ on)
    simp only [Engine.answer]
    split
    · exact sent
    · exact sent.trans (countDropped_posts _).keeps
  | configReadback dst =>
    have sent := sendConfigReadback_keeps mac ops voices n dst
    simp only [Engine.answer]
    split
    · exact sent
    · exact sent.trans (countDropped_posts _).keeps
  | statusFrame dst schema payload =>
    have sent : Posts mac ops P n (n.takeTxSeq.send mac (n.ctx.header .status dst schema n.ctx.txSeq) payload 0).2 :=
      (takeTxSeq_posts n).trans (send_posts _ _ _ (voiced _ rfl rfl))
    simp only [Engine.answer]
    split
    · exact sent.keeps
    · exact (sent.trans (countDropped_posts _)).keeps
  | echo dst seq payload chunk =>
    have sent : Posts mac ops P n (n.send mac (n.ctx.header .ping dst schemaNone seq) payload chunk).2 :=
      sendCut_posts n _ _ _ (voiced _ _ rfl) fun _ _ _ => voiced _ _ rfl
    simp only [Engine.answer]
    split
    · exact sent.keeps
    · exact (sent.trans (countDropped_posts _)).keeps

theorem answers_keeps (voices : Voices ops C P) (n : Engine σ) (nowMs : UInt32) (answers : List Answer)
    (voiced : ∀ a ∈ answers, Says ops P a) (allowed : (∃ dst reason, .status dst reason ∈ answers) → n.ctx.configChangeOwed = true → C) :
    Keeps mac ops P n (answers.foldl (fun n a => n.answer mac ops nowMs a) n) := by
  induction answers generalizing n with
  | nil => exact Keeps.refl n
  | cons a rest ih =>
    have first : Keeps mac ops P n (n.answer mac ops nowMs a) := by
      refine answer_keeps mac ops voices n nowMs a (voiced a List.mem_cons_self) ?_
      rintro ⟨dst,reason,rfl⟩
      exact allowed ⟨dst,reason,List.mem_cons_self⟩
    refine first.trans (ih _ (fun b member => voiced b (List.mem_cons_of_mem _ member)) ?_)
    rintro ⟨dst,reason,member⟩
    exact first.allows mac ops (allowed ⟨dst,reason,List.mem_cons_of_mem _ member⟩)

theorem answerAll_keeps (voices : Voices ops C P) (n : Engine σ) (nowMs : UInt32) (answers : Option (List Answer))
    (voiced : ∀ list, answers = some list → ∀ a ∈ list, Says ops P a)
    (allowed : (∃ list dst reason, answers = some list ∧ .status dst reason ∈ list) → n.ctx.configChangeOwed = true → C) :
    Keeps mac ops P n (n.answerAll mac ops nowMs answers) := by
  cases answers with
  | none => exact Keeps.quiet _ _ rfl rfl rfl rfl rfl
  | some list =>
    refine answers_keeps mac ops voices n nowMs list (voiced list rfl) ?_
    rintro ⟨dst,reason,member⟩
    exact allowed ⟨list,dst,reason,rfl,member⟩

-- What the application sends in answer to a POLL or a PING, whichever was received, is what `P` admits.
structure AdmitsAnswers (ops : Application σ) (P : Header → Bytes → Prop) (type : MsgType) : Prop where
  poll : type = .poll → ∀ app ctx hdr payload nowMs list, (ops.onPoll app ctx hdr payload nowMs).1 = some list → ∀ a ∈ list, Says ops P a
  ping : type = .ping → ∀ app ctx hdr payload fragments nowMs list, (ops.onPing app ctx hdr payload fragments nowMs).1 = some list →
    ∀ a ∈ list, Says ops P a

-- The application answers a PING with a STATUS.
def PingsStatus : Prop :=
  ∃ app ctx hdr payload fragments nowMs list dst reason,
    (ops.onPing app ctx hdr payload fragments nowMs).1 = some list ∧ .status dst reason ∈ list

-- The payload asks for a STATUS, and the node gives it one.
def RequestsStatus (n : Engine σ) (hdr : Header) (payload : Bytes) (nowMs : UInt32) : Prop :=
  hdr.type = .poll ∨ PingsStatus ops ∨ (hdr.type = .command ∧ CommandsStatus ops n hdr payload nowMs)

theorem dispatch_keeps (voices : Voices ops C P) (n : Engine σ) (hdr : Header) (answers : AdmitsAnswers ops P hdr.type) (payload : Bytes)
    (fragments : UInt8) (random : RandomFn) (nowMs : UInt32)
    (allowed : RequestsStatus ops n hdr payload nowMs → n.ctx.configChangeOwed = true → C) :
    Keeps mac ops P n (n.dispatch mac ops hdr payload fragments random nowMs) := by
  have unhandled : Keeps mac ops P n n.unhandled := Keeps.quiet _ _ rfl rfl rfl rfl rfl
  cases typed : hdr.type with
  | error =>
    simp only [Engine.dispatch,typed]
    exact Keeps.refl n
  | ping =>
    simp only [Engine.dispatch,typed]
    let asked : Engine σ := {n with app := (ops.onPing n.app n.ctx hdr payload fragments nowMs).2}
    have asking : Keeps mac ops P n asked := Keeps.quiet _ _ rfl rfl rfl rfl rfl
    refine asking.trans (answerAll_keeps mac ops voices asked nowMs _ (answers.ping typed n.app n.ctx hdr payload fragments nowMs) ?_)
    rintro ⟨list,dst,reason,answered,member⟩
    exact allowed (.inr (.inl ⟨_,_,_,_,_,_,list,dst,reason,answered,member⟩))
  | poll =>
    simp only [Engine.dispatch,typed]
    let asked : Engine σ := {n with app := (ops.onPoll n.app n.ctx hdr payload nowMs).2}
    have asking : Keeps mac ops P n asked := Keeps.quiet _ _ rfl rfl rfl rfl rfl
    exact asking.trans (answerAll_keeps mac ops voices asked nowMs _ (answers.poll typed n.app n.ctx hdr payload nowMs)
      fun _ => allowed (.inl typed))
  | command =>
    simp only [Engine.dispatch,typed]
    split
    · exact onCommand_keeps mac ops voices n hdr payload random nowMs fun commands => allowed (.inr (.inr ⟨typed,commands⟩))
    · cases answered : n.answerRollOnly mac ops hdr payload random with
      | none => exact unhandled
      | some rolled => exact answerRollOnly_keeps mac ops voices n rolled hdr payload random answered
  | hexReq =>
    simp only [Engine.dispatch,typed]
    split
    · exact onHexReq_keeps mac ops voices n hdr payload nowMs
    · exact unhandled
  | config =>
    simp only [Engine.dispatch,typed]
    split
    · exact onConfig_keeps mac ops voices n hdr payload nowMs
    · exact unhandled
  | _ =>
    simp only [Engine.dispatch,typed]
    exact unhandled

theorem refuseAuthenticated_keeps (voices : Voices ops C P) (n : Engine σ) (hdr : Header) (why : Status) :
    Keeps mac ops P n (n.refuseAuthenticated mac hdr why) := by
  let counted : Engine σ := {n with ctx := {n.ctx with hexRequests := n.ctx.hexRequests + 1}}
  have counting : Keeps mac ops P n counted := Keeps.quiet _ _ rfl rfl rfl rfl rfl
  unfold Engine.refuseAuthenticated
  dsimp only
  split
  · exact Keeps.refl n
  · split
    · split
      · exact counting.trans (sendHexRsp_posts mac ops voices counted _ _ _ _).keeps
      · exact counting.trans (sendAck_posts mac ops voices counted _ _ _ _).keeps
    · split
      · exact Keeps.refl n
      · exact (sendAck_posts mac ops voices n _ _ _ _).keeps

theorem completeHex_keeps (voices : Voices ops C P) (n : Engine σ) (status : HexStatus) (hex : Bytes) :
    Keeps mac ops P n (n.completeHex mac status hex).2 := by
  unfold Engine.completeHex
  split
  · exact Keeps.refl n
  · let closed : Engine σ := {n with ctx := {n.ctx with hexPending := {n.ctx.hexPending with active := false}}}
    have closing : Keeps mac ops P n closed := Keeps.quiet _ _ rfl rfl rfl rfl rfl
    exact closing.trans (sendHexRsp_posts mac ops voices closed _ _ _ _).keeps

theorem tickHex_keeps (voices : Voices ops C P) (n : Engine σ) (nowMs : UInt32) : Keeps mac ops P n (n.tickHex mac nowMs) := by
  unfold Engine.tickHex
  dsimp only
  split
  · exact Keeps.refl n
  · let closed : Engine σ := {n with ctx := {n.ctx with hexPending := {n.ctx.hexPending with active := false}}}
    have closing : Keeps mac ops P n closed := Keeps.quiet _ _ rfl rfl rfl rfl rfl
    exact closing.trans (sendHexRsp_posts mac ops voices closed _ _ _ _).keeps

theorem tick_keeps (voices : Voices ops C P) (n : Engine σ) (nowMs : UInt32) : Keeps mac ops P n (n.tick mac nowMs) := by
  unfold Engine.tick
  dsimp only
  refine Keeps.trans (Keeps.quiet _ _ ?_ ?_ ?_ ?_ ?_) (tickHex_keeps mac ops voices _ nowMs)
  all_goals rfl

-- The boot announcement: a STATUS of its own reason, and an EVENT.
theorem announceBoot_keeps (n : Engine σ) (cause : UInt8) (nowMs : UInt32) (tells : Tells ops P .boot)
    (admits : ∀ hdr payload, hdr.type = .event → P hdr payload) : Keeps mac ops P n (n.announceBoot mac ops cause nowMs).2 := by
  let told := (n.sendStatus mac ops nodeBridge .boot nowMs).2
  have telling : Keeps mac ops P n told := sendStatus_keeps mac ops n nodeBridge .boot nowMs tells (fun polled => (by cases polled))
  let event := ops.buildEvent told.app told.ctx .boot (resetCauseDetail cause) nowMs
  let built : Engine σ := {told with app := event.2}
  have building : Keeps mac ops P n built := telling.trans (Keeps.quiet _ _ rfl rfl rfl rfl rfl)
  have sent := building.trans (sendEvent_posts mac ops (P := P) built nodeBridge event.1.1 event.1.2 fun hdr typed _ => admits hdr _ typed).keeps
  unfold Engine.announceBoot
  dsimp only
  split
  · exact building.trans (countDropped_posts _).keeps
  · split
    · exact sent
    · exact sent.trans (countDropped_posts _).keeps

-- An EVENT that carries PHY_REVERTED with one detail, as the application builds it.
def RevertReport (mac : Mac) (ops : Application σ) (key : NodeKey) (detail : UInt16) (bytes : Bytes) : Prop :=
  ∃ app ctx nowMs hdr, hdr.type = .event ∧ hdr.schema = (ops.buildEvent app ctx .phyReverted detail nowMs).1.2 ∧
    encode hdr (ops.buildEvent app ctx .phyReverted detail nowMs).1.1 {mac := some mac,nodeKey := some key} maxFrame = .ok bytes

def Engine.clearRevert (n : Engine σ) : Engine σ := {n with ctx := {n.ctx with phyRevertDetail := 0}}

-- A PHY_REVERTED sent now has a slot to stand in, and a payload that encodes.
def CanReport (n : Engine σ) (dst : NodeId) (nowMs : UInt32) : Prop :=
  let built := (ops.buildEvent n.app n.clearRevert.ctx .phyReverted n.ctx.phyRevertDetail nowMs).1
  1 ≤ n.freeSlots ∧ built.1 ≠ [] ∧ ∃ bytes, encode (n.ctx.header .event dst built.2 n.ctx.txSeq) built.1
    {mac := some mac,nodeKey := some n.ctx.key} maxFrame = .ok bytes

-- The revert is cleared before its report is sent; the rest is a send like any other.
theorem sendPhyReverted_posts (n : Engine σ) (dst : NodeId) (nowMs : UInt32)
    (admits : ∀ hdr payload, hdr.type = .event → P hdr payload) : Posts mac ops P n.clearRevert (n.sendPhyReverted mac ops dst nowMs) := by
  let built : Engine σ := {n.clearRevert with app := (ops.buildEvent n.app n.clearRevert.ctx .phyReverted n.ctx.phyRevertDetail nowMs).2}
  have building : Posts mac ops P n.clearRevert built := ⟨Sends.of_app _ (.buildEvent _ _ _ _ _) (Sends.refl _),rfl⟩
  have sent := building.trans (sendEvent_posts mac ops (P := P) built dst
    (ops.buildEvent n.app n.clearRevert.ctx .phyReverted n.ctx.phyRevertDetail nowMs).1.1
    (ops.buildEvent n.app n.clearRevert.ctx .phyReverted n.ctx.phyRevertDetail nowMs).1.2 fun hdr typed _ => admits hdr _ typed)
  unfold Engine.sendPhyReverted
  dsimp only
  split
  · exact building.trans (countDropped_posts _)
  · split
    · exact sent
    · exact sent.trans (countDropped_posts _)

theorem sendPhyReverted_queues (n : Engine σ) (dst : NodeId) (nowMs : UInt32) (can : CanReport mac ops n dst nowMs) :
    ∃ bytes, (n.sendPhyReverted mac ops dst nowMs).outbox = n.outbox ++ [bytes] ∧
      RevertReport mac ops n.ctx.key n.ctx.phyRevertDetail bytes := by
  obtain ⟨free,some,bytes,encoded⟩ := can
  let event := ops.buildEvent n.app n.clearRevert.ctx .phyReverted n.ctx.phyRevertDetail nowMs
  let built : Engine σ := {n.clearRevert with app := event.2}
  obtain ⟨sent,outbox⟩ := send_encoded mac built.takeTxSeq (built.ctx.header .event dst event.1.2 built.ctx.txSeq) event.1.1 bytes free encoded
  have queued : built.sendEvent mac dst event.1.1 event.1.2 = (true,built.takeTxSeq.push bytes) := sent
  refine ⟨bytes,?_,n.app,n.clearRevert.ctx,nowMs,_,rfl,rfl,encoded⟩
  have whole : n.sendPhyReverted mac ops dst nowMs = built.takeTxSeq.push bytes := by
    change (if event.1.1.length = 0 then built.countDropped
      else if (built.sendEvent mac dst event.1.1 event.1.2).1 = true then (built.sendEvent mac dst event.1.1 event.1.2).2
      else (built.sendEvent mac dst event.1.1 event.1.2).2.countDropped) = _
    rw [if_neg (fun none => some (List.length_eq_zero_iff.mp none)),queued,if_pos rfl]
  rw [whole]
  exact outbox

-- A payload handed over with no revert to report ahead of the answer.
theorem deliver_keeps (voices : Voices ops C P) (n : Engine σ) (hdr : Header) (answers : AdmitsAnswers ops P hdr.type) (payload : Bytes)
    (fragments : UInt8) (random : RandomFn) (nowMs : UInt32) (silent : ¬ (hdr.src = nodeBridge ∧ n.ctx.phyRevertDetail ≠ 0))
    (allowed : RequestsStatus ops n hdr payload nowMs → n.ctx.configChangeOwed = true → C) :
    Keeps mac ops P n (n.deliver mac ops hdr payload fragments random nowMs) := by
  let serving : Engine σ := {n with serving := some ⟨hdr,payload⟩}
  have asked : Keeps mac ops P n serving := Keeps.quiet _ _ rfl rfl rfl rfl rfl
  have dispatched := asked.trans (dispatch_keeps mac ops voices serving hdr answers payload fragments random nowMs allowed)
  unfold Engine.deliver
  dsimp only
  rw [if_neg silent]
  exact dispatched.trans (Keeps.quiet _ _ rfl rfl rfl rfl rfl)

def Engine.serve (n : Engine σ) (hdr : Header) (payload : Bytes) : Engine σ := {n with serving := some ⟨hdr,payload⟩}

-- A payload of the bridge's with a revert owed: the report first, and the answer after it.
theorem deliver_reverted (voices : Voices ops C P) (n : Engine σ) (hdr : Header) (answers : AdmitsAnswers ops P hdr.type) (payload : Bytes)
    (fragments : UInt8) (random : RandomFn) (nowMs : UInt32) (heard : hdr.src = nodeBridge ∧ n.ctx.phyRevertDetail ≠ 0)
    (allowed : RequestsStatus ops n hdr payload nowMs → n.ctx.configChangeOwed = true → C) :
    Keeps mac ops P ((n.serve hdr payload).sendPhyReverted mac ops hdr.src nowMs) (n.deliver mac ops hdr payload fragments random nowMs) := by
  let reported := (n.serve hdr payload).sendPhyReverted mac ops hdr.src nowMs
  have posts : Posts mac ops (fun _ _ => True) (n.serve hdr payload).clearRevert reported :=
    sendPhyReverted_posts mac ops _ hdr.src nowMs fun _ _ _ => trivial
  have still : RequestsStatus ops reported hdr payload nowMs → reported.ctx.configChangeOwed = true → C := by
    obtain ⟨_,_,_,ctx⟩ := posts.sends.ctx
    intro requests on
    rw [posts.owed] at on
    refine allowed ?_ on
    unfold RequestsStatus CommandsStatus at requests ⊢
    rw [ctx] at requests
    exact requests
  have dispatched := dispatch_keeps mac ops voices reported hdr answers payload fragments random nowMs still
  unfold Engine.deliver
  dsimp only
  rw [if_pos heard]
  exact dispatched.trans (Keeps.quiet _ _ rfl rfl rfl rfl rfl)

end
end LoraRan.Node
