import LoraRan.Node.Acts
import LoraRan.Node.Commanding

namespace LoraRan.Node
open Protocol Config
open Library.LittleEndian (u8At)

-- HEX_RSPs by the request they answer. Other frames are not answers to one.
def NoHexRsp (hdr : Header) (_ : Bytes) : Prop := hdr.type ≠ .hexRsp

def HexAnswers (ctxId : CtxId) (seq : Seq) (hdr : Header) (_ : Bytes) : Prop :=
  hdr.type = .hexRsp → hdr.ctxId = ctxId ∧ hdr.seq = seq

-- Neither a COMMAND_ACK nor a HEX_RSP.
def Mute (hdr : Header) (payload : Bytes) : Prop := NoAck hdr payload ∧ NoHexRsp hdr payload

-- Where the gate stands once it let a HEX_REQ through. A read does not ask it.
inductive Passes (g : CommandGate) (seq : Seq) (payload : Bytes) : CommandGate → Prop
  | read : hexReqIsWriteClass payload = false → Passes g seq payload g
  | write : hexReqIsWriteClass payload = true → (g.check seq).1.verdict = .execute →
      Passes g seq payload ((g.check seq).2.record seq .accepted 0).2

-- Everything one HEX_REQ can do: the answer it draws, where it leaves the core and the transaction, and the calls it costs.
inductive HexOutcome (c : Core) (h : HexPending) (seq : Seq) (payload : Bytes) :
    (Header → Bytes → Prop) → Core → HexPending → List CallKind → Prop
  | quiet : HexOutcome c h seq payload Mute c h []
  | cached (slot : Nat) : hexReqIsWriteClass payload = true → c.gate.find seq = some slot → c.gate.inFlight slot = false →
      HexOutcome c h seq payload
        (fun hdr body => Answers c.id c.ctxId ⟨seq,AckResult.duplicateCached.code,(c.gate.entries slot).result.code⟩ hdr body ∧ NoHexRsp hdr body)
        c h []
  | rejected : hexReqIsWriteClass payload = true → (c.gate.check seq).1.verdict = .reject →
      HexOutcome c h seq payload
        (fun hdr body => Answers c.id c.ctxId ⟨seq,AckResult.rejectedSeq.code,0⟩ hdr body ∧ NoHexRsp hdr body) c h []
  | refused (gate : CommandGate) : Passes c.gate seq payload gate →
      h.active = true ∨ (∀ req, HexReq.deserialize payload = some req → hexShaped req.hex = false) →
      HexOutcome c h seq payload (fun hdr body => HexAnswers c.ctxId seq hdr body ∧ NoAck hdr body) {c with gate := gate} h []
  | replied (gate : CommandGate) (req : HexReq) : Passes c.gate seq payload gate → h.active = false →
      HexReq.deserialize payload = some req →
      HexOutcome c h seq payload (fun hdr body => HexAnswers c.ctxId seq hdr body ∧ NoAck hdr body) {c with gate := gate} h
        [.hexForward req.hex]
  | waits (gate : CommandGate) (req : HexReq) (dueMs : UInt32) (peer : NodeId) : Passes c.gate seq payload gate → h.active = false →
      HexReq.deserialize payload = some req →
      HexOutcome c h seq payload Mute {c with gate := gate} ⟨true,dueMs,peer,seq⟩ [.hexForward req.hex]

section
variable {σ : Type} {mac : Mac} {ops : Application σ} {P Q : Header → Bytes → Prop} {n m n' : Engine σ} {core : Core} {made : List CallKind}

-- A HEX_REQ served from here to there.
def HexServed (mac : Mac) (n n' : Engine σ) (seq : Seq) (payload : Bytes) : Prop :=
  ∃ P core h made, HexOutcome n.ctx.core n.ctx.hexPending seq payload P core h made ∧ Effect mac P n n' core made ∧ n'.ctx.hexPending = h

-- A step that leaves the charger's transaction alone and answers no HEX_REQ.
structure HexStill (mac : Mac) (n n' : Engine σ) : Prop where
  key : n'.ctx.key = n.ctx.key
  transaction : n'.ctx.hexPending = n.ctx.hexPending
  outbox : ∃ frames, n'.outbox = n.outbox ++ frames ∧ ∀ bytes ∈ frames, ∃ hdr payload, NoHexRsp hdr payload ∧
    encode hdr payload {mac := some mac,nodeKey := some n.ctx.key} maxFrame = .ok bytes

-- A step that keeps the context and the command in hand.
structure Bystander (n n' : Engine σ) : Prop where
  key : n'.ctx.key = n.ctx.key
  ctxId : n'.ctx.ctxId = n.ctx.ctxId
  pending : n'.ctx.pending = n.ctx.pending

theorem HexStill.trans (first : HexStill mac n m) (second : HexStill mac m n') : HexStill mac n n' := by
  obtain ⟨frames,outbox,early⟩ := first.outbox
  obtain ⟨frames',outbox',late⟩ := second.outbox
  refine ⟨second.key.trans first.key,second.transaction.trans first.transaction,frames ++ frames',?_,?_⟩
  · rw [outbox',outbox,List.append_assoc]
  · intro bytes member
    rcases List.mem_append.mp member with inFirst | inSecond
    · exact early bytes inFirst
    · rw [← first.key]
      exact late bytes inSecond

theorem HexStill.quiet (key : n'.ctx.key = n.ctx.key) (transaction : n'.ctx.hexPending = n.ctx.hexPending) (outbox : n'.outbox = n.outbox) :
    HexStill mac n n' := ⟨key,transaction,[],by simp [outbox],by simp⟩

theorem HexStill.refl (n : Engine σ) : HexStill mac n n := HexStill.quiet rfl rfl rfl

theorem HexStill.after (m : Engine σ) (still : HexStill mac m n') (quiet : HexStill mac n m) : HexStill mac n n' := quiet.trans still

theorem Bystander.trans (first : Bystander n m) (second : Bystander m n') : Bystander n n' :=
  ⟨second.key.trans first.key,second.ctxId.trans first.ctxId,second.pending.trans first.pending⟩

theorem Bystander.refl (n : Engine σ) : Bystander n n := ⟨rfl,rfl,rfl⟩

theorem Sends.hexStill (sends : Sends mac ops P n n') (implied : ∀ hdr payload, P hdr payload → NoHexRsp hdr payload) : HexStill mac n n' := by
  obtain ⟨_,_,_,ctx⟩ := sends.ctx
  refine ⟨sends.key,by rw [ctx],(sends.weaken implied).outbox⟩

theorem Sends.bystander (sends : Sends mac ops P n n') : Bystander n n' := by
  obtain ⟨_,_,_,ctx⟩ := sends.ctx
  exact ⟨sends.key,by rw [ctx],by rw [ctx]⟩

theorem noHexRsp_of_plain (c : Context) (hdr : Header) (payload : Bytes) (plain : PlainFrame c hdr payload) : NoHexRsp hdr payload := by
  intro isRsp
  have listed := plain.2.2
  rw [isRsp] at listed
  exact absurd listed (by decide)

theorem noHexRsp_of_ack (c : Context) (peer : NodeId) (ack : CommandAck) (hdr : Header) (payload : Bytes)
    (frame : AckFrame c peer ack hdr payload) : NoHexRsp hdr payload := by
  obtain ⟨⟨seq,rfl⟩,rfl⟩ := frame
  intro isRsp
  cases isRsp

theorem mute_of_plain (c : Context) (hdr : Header) (payload : Bytes) (plain : PlainFrame c hdr payload) : Mute hdr payload :=
  ⟨noAck_of_plain c hdr payload plain,noHexRsp_of_plain c hdr payload plain⟩

variable (mac ops)

include ops in
theorem sendAck_hexStill (n : Engine σ) (peer : NodeId) (seq : Seq) (result : AckResult) (detail : UInt8) :
    HexStill mac n (n.sendAck mac peer seq result detail).2 := (sendAck_sends mac ops n peer seq result detail).hexStill (noHexRsp_of_ack _ _ _)

theorem sendFreshAck_hexStill (n : Engine σ) (peer : NodeId) (seq : Seq) (result : AckResult) (detail : UInt8) :
    HexStill mac n (n.sendFreshAck mac ops peer seq result detail) :=
  (sendFreshAck_sends mac ops n peer seq result detail).hexStill (noHexRsp_of_ack _ _ _)

variable {mac ops}

theorem Sends.plain_hexStill {c : Context} (sends : Sends mac ops (PlainFrame c) n n') : HexStill mac n n' :=
  sends.hexStill (noHexRsp_of_plain c)

variable (mac ops)

-- COMMANDs and the answers owed for them.

theorem finishCommand_hexStill (n : Engine σ) (nowMs : UInt32) : HexStill mac n (n.finishCommand mac ops nowMs) := by
  unfold Engine.finishCommand
  split
  · exact HexStill.refl n
  · dsimp only
    generalize recorded : ({n with ctx := _} : Engine σ) = m
    have acked : HexStill mac n (m.sendFreshAck mac ops n.ctx.pending.peer n.ctx.pending.seq n.ctx.pending.result n.ctx.pending.detail) := by
      refine HexStill.after m (sendFreshAck_hexStill mac ops m _ _ _ _) ?_
      subst recorded
      exact HexStill.quiet rfl rfl rfl
    split
    · exact acked
    · exact acked.trans (sendStatus_sends mac ops _ _ _ _).plain_hexStill
    · exact acked.trans (sendConfigReadback_sends mac ops _ _).plain_hexStill
    · exact acked.trans (HexStill.quiet rfl rfl rfl)

theorem onRoll_hexStill (n : Engine σ) (hdr : Header) (cmd : Command) (random : RandomFn) : HexStill mac n (n.onRoll mac ops hdr cmd random) := by
  unfold Engine.onRoll
  split
  · exact sendAck_hexStill mac ops n _ _ _ _
  · split
    · exact sendAck_hexStill mac ops n _ _ _ _
    · exact HexStill.after _ (sendFreshAck_hexStill mac ops _ _ _ _ _) (HexStill.quiet rfl rfl rfl)

theorem runCommand_hexStill (n : Engine σ) (hdr : Header) (cmd : Command) (nowMs : UInt32) :
    HexStill mac n (n.runCommand mac ops hdr cmd nowMs) := by
  unfold Engine.runCommand
  dsimp only
  split
  · exact HexStill.after _ (sendFreshAck_hexStill mac ops _ _ _ _ _) (HexStill.quiet rfl rfl rfl)
  · split
    · exact HexStill.quiet rfl rfl rfl
    · exact HexStill.after _ (finishCommand_hexStill mac ops _ nowMs) (HexStill.quiet rfl rfl rfl)

theorem onCommand_hexStill (n : Engine σ) (hdr : Header) (payload : Bytes) (random : RandomFn) (nowMs : UInt32) :
    HexStill mac n (n.onCommand mac ops hdr payload random nowMs) := by
  unfold Engine.onCommand
  dsimp only
  split
  · exact HexStill.quiet rfl rfl rfl
  · split
    · exact HexStill.quiet rfl rfl rfl
    · rename_i cmd _
      split
      · exact HexStill.after _ (sendAck_hexStill mac ops _ _ _ _ _) (HexStill.quiet rfl rfl rfl)
      · split
        · exact HexStill.after _ (onRoll_hexStill mac ops _ hdr cmd random) (HexStill.quiet rfl rfl rfl)
        · split
          · exact HexStill.after _ (runCommand_hexStill mac ops _ hdr cmd nowMs) (HexStill.quiet rfl rfl rfl)
          · exact HexStill.after _ (sendAck_hexStill mac ops _ _ _ _ _) (HexStill.quiet rfl rfl rfl)
          · exact HexStill.quiet rfl rfl rfl
          · exact HexStill.after _ (sendAck_hexStill mac ops _ _ _ _ _) (HexStill.quiet rfl rfl rfl)

theorem answerRollOnly_hexStill (n n' : Engine σ) (hdr : Header) (payload : Bytes) (random : RandomFn)
    (answered : n.answerRollOnly mac ops hdr payload random = some n') : HexStill mac n n' := by
  unfold Engine.answerRollOnly at answered
  split at answered
  · cases answered
  · rename_i cmd _
    split at answered
    · cases answered
    · cases answered
      split
      · exact HexStill.quiet rfl rfl rfl
      · exact HexStill.after _ (onRoll_hexStill mac ops _ hdr cmd random) (HexStill.quiet rfl rfl rfl)

-- CONFIGs: the store, the application and the tuning move, the context's identity does not.

-- Nothing queued, and neither the context nor what is in hand in it changed.
structure Untouched (n n' : Engine σ) : Prop where
  bystander : Bystander n n'
  transaction : n'.ctx.hexPending = n.ctx.hexPending
  outbox : n'.outbox = n.outbox

theorem Untouched.trans {n m n' : Engine σ} (first : Untouched n m) (second : Untouched m n') : Untouched n n' :=
  ⟨first.bystander.trans second.bystander,second.transaction.trans first.transaction,second.outbox.trans first.outbox⟩

theorem tune_untouched (n : Engine σ) (tunings : List Tuning) : Untouched n (n.tune tunings) := by
  suffices kept : ∀ c : Context, (tunings.foldl Tuning.apply c).key = c.key ∧ (tunings.foldl Tuning.apply c).ctxId = c.ctxId ∧
      (tunings.foldl Tuning.apply c).pending = c.pending ∧ (tunings.foldl Tuning.apply c).hexPending = c.hexPending by
    obtain ⟨key,ctxId,pending,transaction⟩ := kept n.ctx
    exact ⟨⟨key,ctxId,pending⟩,transaction,rfl⟩
  induction tunings with
  | nil => exact fun c => ⟨rfl,rfl,rfl,rfl⟩
  | cons tuning rest ih =>
      intro c
      cases tuning with
      | cacheDepth depth => exact ih {c with gate := c.gate.setCacheDepth depth}
      | fragTimeoutMs ms => exact ih {c with reassembler := c.reassembler.setTimeoutMs ms}

theorem setEntries_untouched (n : Engine σ) (entries : List ConfigEntry) : Untouched n (n.setEntries ops entries).2 := by
  induction entries generalizing n with
  | nil => exact ⟨Bystander.refl n,rfl,rfl⟩
  | cons entry rest ih =>
      unfold Engine.setEntries
      dsimp only
      refine Untouched.trans ?_ (ih _)
      unfold Engine.setEntry
      split
      · exact ⟨⟨rfl,rfl,rfl⟩,rfl,rfl⟩
      · have tuned := tune_untouched {n.call (.configSet entry) with app := (ops.configSet n.app n.ctx entry).2.2} (ops.configSet n.app n.ctx entry).2.1
        exact ⟨⟨tuned.bystander.key,tuned.bystander.ctxId,tuned.bystander.pending⟩,tuned.transaction,tuned.outbox⟩

theorem getEntries_untouched (n : Engine σ) (entries : List ConfigEntry) : Untouched n (n.getEntries ops entries).2 := by
  induction entries generalizing n with
  | nil => exact ⟨Bystander.refl n,rfl,rfl⟩
  | cons entry rest ih =>
      unfold Engine.getEntries
      dsimp only
      refine Untouched.trans ?_ (ih _)
      unfold Engine.getEntry
      split
      · exact ⟨⟨rfl,rfl,rfl⟩,rfl,rfl⟩
      · exact ⟨⟨rfl,rfl,rfl⟩,rfl,rfl⟩

theorem applyConfig_untouched (n : Engine σ) (config : NodeConfigV1) (nowMs : UInt32) : Untouched n (n.applyConfig ops config nowMs).2 := by
  unfold Engine.applyConfig
  split
  · refine (setEntries_untouched ops n config.entries).trans ?_
    dsimp only
    unfold Engine.closeSet
    dsimp only
    split
    · exact ⟨⟨rfl,rfl,rfl⟩,rfl,rfl⟩
    · exact ⟨⟨rfl,rfl,rfl⟩,rfl,rfl⟩
  · split
    · exact getEntries_untouched ops n config.entries
    · split
      · exact ⟨⟨rfl,rfl,rfl⟩,rfl,rfl⟩
      · split
        · have tuned := tune_untouched {n.call .configRestoreDefaults with app := (ops.configRestoreDefaults n.app n.ctx).2}
            (ops.configRestoreDefaults n.app n.ctx).1
          exact ⟨⟨tuned.bystander.key,tuned.bystander.ctxId,tuned.bystander.pending⟩,tuned.transaction,tuned.outbox⟩
        · exact ⟨⟨rfl,rfl,rfl⟩,rfl,rfl⟩

-- A step that answers no HEX_REQ and keeps everything a COMMAND or a HEX_REQ left in hand.
structure Aloof (n n' : Engine σ) : Prop where
  still : HexStill mac n n'
  bystander : Bystander n n'

variable {mac ops}

theorem Aloof.trans {n m n' : Engine σ} (first : Aloof mac n m) (second : Aloof mac m n') : Aloof mac n n' :=
  ⟨first.still.trans second.still,first.bystander.trans second.bystander⟩

theorem Untouched.aloof {n n' : Engine σ} (untouched : Untouched n n') : Aloof mac n n' :=
  ⟨HexStill.quiet untouched.bystander.key untouched.transaction untouched.outbox,untouched.bystander⟩

theorem Aloof.after {n n' : Engine σ} (m : Engine σ) (aloof : Aloof mac m n') (untouched : Untouched n m) : Aloof mac n n' :=
  untouched.aloof.trans aloof

theorem Sends.plain_aloof {c : Context} {n n' : Engine σ} (sends : Sends mac ops (PlainFrame c) n n') : Aloof mac n n' :=
  ⟨sends.plain_hexStill,sends.bystander⟩

variable (mac ops)

include ops in
theorem sendAck_aloof (n : Engine σ) (peer : NodeId) (seq : Seq) (result : AckResult) (detail : UInt8) :
    Aloof mac n (n.sendAck mac peer seq result detail).2 :=
  ⟨sendAck_hexStill mac ops n peer seq result detail,(sendAck_sends mac ops n peer seq result detail).bystander⟩

theorem onConfig_aloof (n : Engine σ) (hdr : Header) (payload : Bytes) (nowMs : UInt32) : Aloof mac n (n.onConfig mac ops hdr payload nowMs) := by
  unfold Engine.onConfig
  dsimp only
  split
  · exact Untouched.aloof ⟨⟨rfl,rfl,rfl⟩,rfl,rfl⟩
  · split
    · split
      · rename_i config _
        split
        · let ready := Engine.setGate {n with app := (ops.withhold n.app n.ctx .config hdr).2} (n.ctx.gate.check hdr.seq).2
          refine Aloof.after ready ?_ ⟨⟨rfl,rfl,rfl⟩,rfl,rfl⟩
          exact Aloof.after _ (sendConfigAnswer_sends mac ops _ _ _ _).plain_aloof (applyConfig_untouched ops ready config nowMs)
        · exact Aloof.after _ (sendAck_aloof mac ops _ _ _ _ _) ⟨⟨rfl,rfl,rfl⟩,rfl,rfl⟩
      · exact Aloof.after _ (sendAck_aloof mac ops _ _ _ _ _) ⟨⟨rfl,rfl,rfl⟩,rfl,rfl⟩
    · exact Untouched.aloof ⟨⟨rfl,rfl,rfl⟩,rfl,rfl⟩
    · exact Aloof.after _ (sendAck_aloof mac ops _ _ _ _ _) ⟨⟨rfl,rfl,rfl⟩,rfl,rfl⟩
    · split
      · exact Aloof.after _ (sendConfigAck_sends mac ops _ _ _ _).plain_aloof ⟨⟨rfl,rfl,rfl⟩,rfl,rfl⟩
      · rename_i config _
        let ready := Engine.confirmPhy (Engine.setGate {n with app := (ops.withhold n.app n.ctx .config hdr).2} (n.ctx.gate.check hdr.seq).2)
        let counted : Engine σ := {ready with ctx := {ready.ctx with executions := ready.ctx.executions + 1}}
        refine Aloof.after counted ?_ ⟨⟨rfl,rfl,rfl⟩,rfl,rfl⟩
        refine Aloof.after (counted.applyConfig ops config nowMs).2 ?_ (applyConfig_untouched ops counted config nowMs)
        exact Aloof.after _ (sendConfigAnswer_sends mac ops _ _ _ _).plain_aloof ⟨⟨rfl,rfl,rfl⟩,rfl,rfl⟩

theorem answerAll_aloof (n : Engine σ) (nowMs : UInt32) (answers : Option (List Answer)) : Aloof mac n (n.answerAll mac ops nowMs answers) := by
  unfold Engine.answerAll
  split
  · exact Untouched.aloof ⟨⟨rfl,rfl,rfl⟩,rfl,rfl⟩
  · exact (answers_sends mac ops n nowMs _).plain_aloof

-- HEX_REQs.

variable {mac ops}

theorem HexServed.after {n n' : Engine σ} {seq : Seq} {payload : Bytes} (m : Engine σ) (served : HexServed mac m n' seq payload) (still : Still n m)
    (kept : m.ctx.core = n.ctx.core) (transaction : m.ctx.hexPending = n.ctx.hexPending) : HexServed mac n n' seq payload := by
  obtain ⟨P,core,h,made,outcome,effect,left⟩ := served
  rw [kept,transaction] at outcome
  exact ⟨P,core,h,made,outcome,effect.after m still,left⟩

theorem HexServed.before {n n' : Engine σ} {seq : Seq} {payload : Bytes} (m : Engine σ) (served : HexServed mac n m seq payload) (still : Still m n')
    (kept : n'.ctx.core = m.ctx.core) (transaction : n'.ctx.hexPending = m.ctx.hexPending) : HexServed mac n n' seq payload := by
  obtain ⟨P,core,h,made,outcome,effect,left⟩ := served
  exact ⟨P,core,h,made,outcome,effect.before still kept,transaction.trans left⟩

theorem HexOutcome.of_mute {c core : Core} {h h' : HexPending} {seq : Seq} {payload : Bytes} {P : Header → Bytes → Prop} {made : List CallKind}
    (outcome : HexOutcome c h seq payload P core h' made) (hdr : Header) (other : Bytes) (mute : Mute hdr other) : P hdr other := by
  cases outcome with
  | quiet => exact mute
  | cached => exact ⟨answers_of_noAck _ _ _ hdr other mute.1,mute.2⟩
  | rejected => exact ⟨answers_of_noAck _ _ _ hdr other mute.1,mute.2⟩
  | refused => exact ⟨fun isRsp => absurd isRsp mute.2,mute.1⟩
  | replied => exact ⟨fun isRsp => absurd isRsp mute.2,mute.1⟩
  | waits => exact mute

-- A report sent ahead of the answer is no answer itself.
theorem HexServed.following {n m n' : Engine σ} {seq : Seq} {payload : Bytes} (reported : Effect mac Mute n m n.ctx.core [])
    (transaction : m.ctx.hexPending = n.ctx.hexPending) (served : HexServed mac m n' seq payload) : HexServed mac n n' seq payload := by
  obtain ⟨P,core,h,made,outcome,effect,left⟩ := served
  have joined := (reported.weaken outcome.of_mute).trans effect
  rw [List.append_nil] at joined
  rw [reported.core,transaction] at outcome
  exact ⟨P,core,h,made,outcome,joined,left⟩

theorem HexServed.quietly {n n' : Engine σ} {seq : Seq} {payload : Bytes} (still : Still n n') (kept : n'.ctx.core = n.ctx.core)
    (transaction : n'.ctx.hexPending = n.ctx.hexPending) : HexServed mac n n' seq payload :=
  ⟨_,_,_,_,.quiet,Still.effect still kept,transaction⟩

variable (mac ops)

include ops in
theorem sendHexRsp_answers (n : Engine σ) (dst : NodeId) (seq : Seq) (status : HexStatus) (hex : Bytes) :
    Effect mac (fun hdr body => HexAnswers n.ctx.ctxId seq hdr body ∧ NoAck hdr body) n (n.sendHexRsp mac dst seq status hex).2 n.ctx.core [] ∧
      (n.sendHexRsp mac dst seq status hex).2.ctx.hexPending = n.ctx.hexPending := by
  have sends := sendHexRsp_sends mac ops n dst seq status hex
  obtain ⟨_,_,_,ctx⟩ := sends.ctx
  refine ⟨sends.effect.weaken ?_,by rw [ctx]⟩
  rintro hdr payload ⟨rfl,_⟩
  exact ⟨fun _ => ⟨rfl,rfl⟩,fun isAck => by cases isAck⟩

include ops in
theorem sendAck_answers (n : Engine σ) (peer : NodeId) (seq : Seq) (result : AckResult) (detail : UInt8) :
    Effect mac (fun hdr body => Answers n.ctx.id n.ctx.ctxId ⟨seq,result.code,detail⟩ hdr body ∧ NoHexRsp hdr body) n
      (n.sendAck mac peer seq result detail).2 n.ctx.core [] ∧ (n.sendAck mac peer seq result detail).2.ctx.hexPending = n.ctx.hexPending := by
  have sends := sendAck_sends mac ops n peer seq result detail
  obtain ⟨_,_,_,ctx⟩ := sends.ctx
  refine ⟨sends.effect.weaken ?_,by rw [ctx]⟩
  exact fun hdr payload frame => ⟨answers_of_ack _ _ _ hdr payload frame,noHexRsp_of_ack _ _ _ hdr payload frame⟩

-- Past the gate: `n` is the node the request met, `m` the one the gate let it through to.
theorem forwardHex_served (n m : Engine σ) (hdr : Header) (payload : Bytes) (nowMs : UInt32) (gate : CommandGate)
    (passes : Passes n.ctx.gate hdr.seq payload gate) (still : Still n m) (kept : m.ctx.core = {n.ctx.core with gate := gate})
    (transaction : m.ctx.hexPending = n.ctx.hexPending) : HexServed mac n (m.forwardHex mac ops hdr payload nowMs) hdr.seq payload := by
  have answers : ∀ (o : Engine σ) (status : HexStatus) (hex : Bytes) (made : List CallKind), o.ctx = m.ctx → o.outbox = m.outbox →
      o.calls.map Call.kind = made ++ m.calls.map Call.kind →
      Effect mac (fun hdr' body => HexAnswers n.ctx.core.ctxId hdr.seq hdr' body ∧ NoAck hdr' body) n (o.sendHexRsp mac hdr.src hdr.seq status hex).2
        {n.ctx.core with gate := gate} made ∧ (o.sendHexRsp mac hdr.src hdr.seq status hex).2.ctx.hexPending = n.ctx.hexPending := by
    intro o status hex made sameCtx sameOutbox calls
    obtain ⟨effect,left⟩ := sendHexRsp_answers mac ops o hdr.src hdr.seq status hex
    have context : o.ctx.ctxId = n.ctx.core.ctxId := by
      rw [sameCtx]
      exact congrArg Core.ctxId kept
    have key : o.ctx.key = n.ctx.key := by rw [sameCtx,still.key]
    refine ⟨⟨effect.key.trans key,?_,?_,?_⟩,left.trans (by rw [sameCtx,transaction])⟩
    · rw [effect.core,sameCtx,kept]
    · rw [effect.calls,calls,still.calls]
      rfl
    · obtain ⟨frames,outbox,each⟩ := effect.outbox
      rw [key] at each
      rw [context] at each
      exact ⟨frames,by rw [outbox,sameOutbox,still.outbox],each⟩
  unfold Engine.forwardHex
  split
  · rename_i unreadable
    obtain ⟨effect,left⟩ := answers m .malformedRequest [] [] rfl rfl rfl
    refine ⟨_,_,_,_,.refused gate passes (.inr ?_),effect,left⟩
    intro req parsed
    rw [unreadable] at parsed
    cases parsed
  · rename_i req parsed
    split
    · rename_i shapeless
      obtain ⟨effect,left⟩ := answers m .malformedRequest [] [] rfl rfl rfl
      refine ⟨_,_,_,_,.refused gate passes (.inr ?_),effect,left⟩
      intro other parsed'
      obtain rfl := Option.some.inj (parsed.symm.trans parsed')
      simpa using shapeless
    · split
      · rename_i outstanding
        obtain ⟨effect,left⟩ := answers m .busy [] [] rfl rfl rfl
        exact ⟨_,_,_,_,.refused gate passes (.inl (transaction ▸ outstanding)),effect,left⟩
      · rename_i free
        have free : n.ctx.hexPending.active = false := by
          rw [← transaction]
          exact eq_false_of_ne_true free
        dsimp only
        split
        · refine ⟨_,_,_,_,.waits gate req _ hdr.src passes free parsed,⟨still.key,kept,?_,[],?_,by simp⟩,rfl⟩
          · exact congrArg (fun calls => CallKind.hexForward req.hex :: List.map Call.kind calls) still.calls
          · rw [List.append_nil]
            exact still.outbox
        · rename_i rsp _
          obtain ⟨effect,left⟩ := answers {m.call (.hexForward req.hex) with app := (ops.hexForward m.app m.ctx req.hex nowMs).2} .ok rsp
            [.hexForward req.hex] rfl rfl rfl
          exact ⟨_,_,_,_,.replied gate req passes free parsed,effect,left⟩

theorem onHexReq_served (n : Engine σ) (hdr : Header) (payload : Bytes) (nowMs : UInt32) :
    HexServed mac n (n.onHexReq mac ops hdr payload nowMs) hdr.seq payload := by
  unfold Engine.onHexReq
  dsimp only
  split
  · exact HexServed.quietly ⟨rfl,rfl,rfl⟩ rfl rfl
  · split
    · rename_i writes
      generalize readied : ({n with app := _,ctx := _} : Engine σ) = m
      have gated : m.ctx.core = n.ctx.core ∧ m.ctx.hexPending = n.ctx.hexPending ∧ Still n m := by
        subst readied
        exact ⟨rfl,rfl,⟨rfl,rfl,rfl⟩⟩
      obtain ⟨kept,transaction,still⟩ := gated
      have settle : ∀ gate, (m.setGate gate).ctx.core = {n.ctx.core with gate := gate} :=
        fun gate => congrArg (fun c : Core => {c with gate := gate}) kept
      rcases check_cases n.ctx.gate hdr.seq with ⟨executes,_⟩ | ⟨inFlight,same⟩ | ⟨reject,same⟩ | ⟨slot,cached,same,found,settled,result⟩
      · rw [executes]
        exact forwardHex_served mac ops n _ hdr payload nowMs _ (.write writes executes) ⟨still.key,still.calls,still.outbox⟩ (settle _) transaction
      · rw [inFlight,same]
        exact HexServed.quietly ⟨still.key,still.calls,still.outbox⟩ (settle n.ctx.gate) transaction
      · rw [reject,same]
        refine HexServed.after (m.setGate n.ctx.gate) ?_ ⟨still.key,still.calls,still.outbox⟩ (settle n.ctx.gate) transaction
        obtain ⟨effect,left⟩ := sendAck_answers mac ops (m.setGate n.ctx.gate) hdr.src hdr.seq .rejectedSeq 0
        exact ⟨_,_,_,_,.rejected writes reject,effect,left⟩
      · rw [cached,same,result]
        refine HexServed.after (m.setGate n.ctx.gate) ?_ ⟨still.key,still.calls,still.outbox⟩ (settle n.ctx.gate) transaction
        obtain ⟨effect,left⟩ := sendAck_answers mac ops (m.setGate n.ctx.gate) hdr.src hdr.seq .duplicateCached (n.ctx.gate.entries slot).result.code
        exact ⟨_,_,_,_,.cached slot writes found settled,effect,left⟩
    · rename_i reads
      exact forwardHex_served mac ops n _ hdr payload nowMs _ (.read (eq_false_of_ne_true reads)) ⟨rfl,rfl,rfl⟩ rfl rfl

-- What a delivery can do, by its type. A revert is reported ahead of it.

theorem reported_effect (n : Engine σ) (d : Delivery) (nowMs : UInt32) :
    Effect mac Mute n (Engine.sendPhyReverted mac ops {n with serving := some d} d.hdr.src nowMs) n.ctx.core [] ∧
      Aloof mac n (Engine.sendPhyReverted mac ops {n with serving := some d} d.hdr.src nowMs) := by
  let taken : Engine σ := {n with serving := some d}
  have sends := sendPhyReverted_sends mac ops taken d.hdr.src nowMs
  exact ⟨Effect.after _ (sends.effect.weaken (mute_of_plain _)) ⟨rfl,rfl,rfl⟩,Aloof.after _ sends.plain_aloof ⟨⟨rfl,rfl,rfl⟩,rfl,rfl⟩⟩

theorem deliver_hexServed (n : Engine σ) (hdr : Header) (payload : Bytes) (fragments : UInt8) (random : RandomFn) (nowMs : UInt32)
    (typed : hdr.type = .hexReq) : HexServed mac n (n.deliver mac ops hdr payload fragments random nowMs) hdr.seq payload := by
  have dispatched : ∀ m : Engine σ, HexServed mac m (m.dispatch mac ops hdr payload fragments random nowMs) hdr.seq payload := by
    intro m
    unfold Engine.dispatch
    dsimp only
    rw [typed]
    dsimp only
    split
    · exact onHexReq_served mac ops m hdr payload nowMs
    · exact HexServed.quietly ⟨rfl,rfl,rfl⟩ rfl rfl
  unfold Engine.deliver
  dsimp only
  split
  · obtain ⟨reported,aloof⟩ := reported_effect mac ops n ⟨hdr,payload⟩ nowMs
    exact HexServed.before _ (HexServed.following reported aloof.still.transaction (dispatched _)) ⟨rfl,rfl,rfl⟩ rfl rfl
  · let taken : Engine σ := {n with serving := some ⟨hdr,payload⟩}
    exact HexServed.before _ (HexServed.after taken (dispatched taken) ⟨rfl,rfl,rfl⟩ rfl rfl) ⟨rfl,rfl,rfl⟩ rfl rfl

theorem deliver_command_hexStill (n : Engine σ) (hdr : Header) (payload : Bytes) (fragments : UInt8) (random : RandomFn) (nowMs : UInt32)
    (typed : hdr.type = .command) : HexStill mac n (n.deliver mac ops hdr payload fragments random nowMs) := by
  have dispatched : ∀ m : Engine σ, HexStill mac m (m.dispatch mac ops hdr payload fragments random nowMs) := by
    intro m
    unfold Engine.dispatch
    dsimp only
    rw [typed]
    dsimp only
    split
    · exact onCommand_hexStill mac ops m hdr payload random nowMs
    · cases answered : m.answerRollOnly mac ops hdr payload random with
      | none => exact HexStill.quiet rfl rfl rfl
      | some next => exact answerRollOnly_hexStill mac ops m next hdr payload random answered
  unfold Engine.deliver
  dsimp only
  split
  · obtain ⟨_,aloof⟩ := reported_effect mac ops n ⟨hdr,payload⟩ nowMs
    exact (aloof.still.trans (dispatched _)).trans (HexStill.quiet rfl rfl rfl)
  · let taken : Engine σ := {n with serving := some ⟨hdr,payload⟩}
    have idle : HexStill mac n taken := HexStill.quiet rfl rfl rfl
    exact (idle.trans (dispatched taken)).trans (HexStill.quiet rfl rfl rfl)

theorem deliver_aloof (n : Engine σ) (hdr : Header) (payload : Bytes) (fragments : UInt8) (random : RandomFn) (nowMs : UInt32)
    (noCommand : hdr.type ≠ .command) (noHexReq : hdr.type ≠ .hexReq) : Aloof mac n (n.deliver mac ops hdr payload fragments random nowMs) := by
  have dispatched : ∀ m : Engine σ, Aloof mac m (m.dispatch mac ops hdr payload fragments random nowMs) := by
    intro m
    unfold Engine.dispatch
    dsimp only
    split
    · exact Untouched.aloof ⟨⟨rfl,rfl,rfl⟩,rfl,rfl⟩
    · exact Aloof.after _ (answerAll_aloof mac ops _ nowMs _) ⟨⟨rfl,rfl,rfl⟩,rfl,rfl⟩
    · exact Aloof.after _ (answerAll_aloof mac ops _ nowMs _) ⟨⟨rfl,rfl,rfl⟩,rfl,rfl⟩
    · rename_i typed
      exact absurd typed noCommand
    · rename_i typed
      exact absurd typed noHexReq
    · split
      · exact onConfig_aloof mac ops m hdr payload nowMs
      · exact Untouched.aloof ⟨⟨rfl,rfl,rfl⟩,rfl,rfl⟩
    · exact Untouched.aloof ⟨⟨rfl,rfl,rfl⟩,rfl,rfl⟩
  have idled : ∀ m : Engine σ, Aloof mac m {m with serving := none} := fun m => Untouched.aloof ⟨⟨rfl,rfl,rfl⟩,rfl,rfl⟩
  unfold Engine.deliver
  dsimp only
  split
  · obtain ⟨_,aloof⟩ := reported_effect mac ops n ⟨hdr,payload⟩ nowMs
    exact (aloof.trans (dispatched _)).trans (idled _)
  · let taken : Engine σ := {n with serving := some ⟨hdr,payload⟩}
    have idle : Aloof mac n taken := Untouched.aloof ⟨⟨rfl,rfl,rfl⟩,rfl,rfl⟩
    exact (idle.trans (dispatched taken)).trans (idled _)

-- Refused for its context or its MAC, in the node's own context.
def Refuses (c : Core) (asked hdr : Header) (payload : Bytes) : Prop :=
  (hdr.type = .hexRsp → asked.type = .hexReq ∧ hdr.ctxId = c.ctxId ∧ hdr.seq = asked.seq) ∧
  (hdr.type = .commandAck → ∃ result : AckResult, (result = .rejectedCtx ∨ result = .rejectedMac) ∧
    payload = CommandAck.serialize ⟨asked.seq,result.code,0⟩)

include ops in
theorem refuseAuthenticated_refuses (n : Engine σ) (asked : Header) (why : Status) :
    Effect mac (Refuses n.ctx.core asked) n (n.refuseAuthenticated mac asked why) n.ctx.core [] ∧
      (n.refuseAuthenticated mac asked why).ctx.hexPending = n.ctx.hexPending := by
  have acked : ∀ (m : Engine σ) (result : AckResult), m.ctx.core = n.ctx.core → m.ctx.hexPending = n.ctx.hexPending → Still n m →
      result = .rejectedCtx ∨ result = .rejectedMac →
      Effect mac (Refuses n.ctx.core asked) n (m.sendAck mac asked.src asked.seq result 0).2 n.ctx.core [] ∧
        (m.sendAck mac asked.src asked.seq result 0).2.ctx.hexPending = n.ctx.hexPending := by
    intro m result kept transaction still refusal
    obtain ⟨effect,left⟩ := sendAck_answers mac ops m asked.src asked.seq result 0
    rw [kept] at effect
    refine ⟨(effect.after m still).weaken ?_,left.trans transaction⟩
    exact fun hdr payload answer => ⟨fun isRsp => absurd isRsp answer.2,fun isAck => ⟨result,refusal,(answer.1 isAck).2.2⟩⟩
  have chosen : ∀ why : Status, (if why = .rejectedCtx then AckResult.rejectedCtx else .rejectedMac) = .rejectedCtx ∨
      (if why = .rejectedCtx then AckResult.rejectedCtx else .rejectedMac) = .rejectedMac := by
    intro why
    split
    · exact .inl rfl
    · exact .inr rfl
  unfold Engine.refuseAuthenticated
  dsimp only
  split
  · exact ⟨Effect.refl n,rfl⟩
  · split
    · rename_i typed
      let counted : Engine σ := {n with ctx := {n.ctx with hexRequests := n.ctx.hexRequests + 1}}
      split
      · obtain ⟨effect,left⟩ := sendHexRsp_answers mac ops counted asked.src asked.seq .rejectedUnauthenticated []
        refine ⟨Effect.after counted (effect.weaken ?_) ⟨rfl,rfl,rfl⟩,left⟩
        exact fun hdr payload answer => ⟨fun isRsp => ⟨typed,answer.1 isRsp⟩,fun isAck => absurd isAck answer.2⟩
      · exact acked counted _ rfl rfl ⟨rfl,rfl,rfl⟩ (chosen why)
    · split
      · exact ⟨Effect.refl n,rfl⟩
      · exact acked n _ rfl rfl ⟨rfl,rfl,rfl⟩ (chosen why)

-- A node between frames, as the ladder leaves it: only the counters and the slot moved.
structure Counted (n m : Engine σ) : Prop where
  still : Still n m
  core : m.ctx.core = n.ctx.core
  transaction : m.ctx.hexPending = n.ctx.hexPending
  app : m.app = n.app

theorem Counted.untouched {n m : Engine σ} (counted : Counted n m) : Untouched n m :=
  ⟨⟨counted.still.key,congrArg Core.ctxId counted.core,congrArg Core.pending counted.core⟩,counted.transaction,counted.still.outbox⟩

-- A HEX_REQ comes whole, and its body states its own length.
theorem hexReq_of_accepted (buf : Bytes) (ctx : DecodeCtx) (head f : Frame) (decoded : decodePayload buf ctx head = (.ok,f)) :
    f.hdr = head.hdr ∧ (f.hdr.type = .hexReq → ¬ 1 < f.hdr.fragTotal ∧ ∃ req, HexReq.deserialize f.payload = some req) := by
  obtain ⟨present,payloadLen,_,_,_,_,fragmentable,measured,checked⟩ := decodePayload_parts _ _ _ _ decoded
  obtain ⟨_,_,sameHdr,samePayload,_⟩ := authenticate_parts _ _ _ _ checked
  dsimp only at sameHdr samePayload
  have single : head.hdr.type = .hexReq → ¬ 1 < head.hdr.fragTotal := by
    intro typed several
    have cut := fragmentable several
    rw [typed] at cut
    cases cut
  rw [sameHdr,samePayload]
  refine ⟨rfl,fun typed => ⟨single typed,?_⟩⟩
  obtain ⟨long,stated⟩ := checkPayloadLen_hexReq head.hdr _ typed (single typed) measured
  unfold HexReq.deserialize
  rw [if_neg (by omega),if_pos stated]
  exact ⟨_,rfl⟩

theorem decodePayload_hdr (buf : Bytes) (ctx : DecodeCtx) (head : Frame) : (decodePayload buf ctx head).2.hdr = head.hdr := by
  unfold decodePayload
  dsimp only
  split
  · rfl
  · split
    · rfl
    · split
      · rfl
      · split
        · rfl
        · split
          · rfl
          · split
            · rfl
            · split
              · rfl
              · exact (authenticate_cases ctx _ _).1

-- A HEX_REQ the codec passed, and the payload it carries.
def HexDecoded (c : Context) (buf payload : Bytes) : Prop :=
  (readHeader buf).type = .hexReq → ∃ f, decodePayload buf (c.payloadCtx mac) {hdr := readHeader buf} = (.ok,f) ∧ f.payload = payload

-- The receive ladder on any bytes at all: nothing served, refused, or a payload delivered under the header they carry.
theorem receive_cases (n : Engine σ) (buf : Bytes) (random : RandomFn) (nowMs : UInt32) :
    Counted n (n.receive mac ops buf random nowMs) ∨
    (∃ m why, Counted n m ∧ decodeHeader buf n.ctx.headerCtx = (.ok,{hdr := readHeader buf}) ∧
      n.receive mac ops buf random nowMs = m.refuseAuthenticated mac (readHeader buf) why) ∨
    (∃ m payload fragments, Counted n m ∧ decodeHeader buf n.ctx.headerCtx = (.ok,{hdr := readHeader buf}) ∧ HexDecoded mac n.ctx buf payload ∧
      n.receive mac ops buf random nowMs = m.deliver mac ops (readHeader buf) payload fragments random nowMs) := by
  unfold Engine.receive
  dsimp only
  split
  · rename_i head headed
    obtain ⟨_,_,_,rfl,_,counted,_⟩ := decodeHeader_parts _ _ _ headed
    split
    · rename_i f decoded
      obtain ⟨sameHdr,whole⟩ := hexReq_of_accepted _ _ _ _ decoded
      dsimp only at sameHdr
      rw [sameHdr] at whole ⊢
      split
      · exact .inl ⟨⟨rfl,rfl,rfl⟩,rfl,rfl,rfl⟩
      · split
        · refine .inr (.inr ⟨_,_,_,?_,headed,fun _ => ⟨f,decoded,rfl⟩,rfl⟩)
          exact ⟨⟨rfl,rfl,rfl⟩,rfl,rfl,rfl⟩
        · rename_i several
          unfold Engine.receiveFragment
          dsimp only
          split
          · exact .inl ⟨⟨rfl,rfl,rfl⟩,rfl,rfl,rfl⟩
          · rw [sameHdr]
            refine .inr (.inr ⟨_,_,_,?_,headed,?_,rfl⟩)
            · exact ⟨⟨rfl,rfl,rfl⟩,rfl,rfl,rfl⟩
            · -- A HEX_REQ is never cut.
              intro typed
              have few := (whole typed).1
              rw [UInt8.lt_iff_toNat_lt] at few
              have nonzero : (readHeader buf).fragTotal.toNat ≠ 0 := fun zero => counted (UInt8.toNat_inj.mp zero)
              have one : (1 : UInt8).toNat = 1 := rfl
              exact absurd (UInt8.toNat_inj.mp (show (readHeader buf).fragTotal.toNat = (1 : UInt8).toNat by omega)) several
    · rename_i body f _ decoded
      have sameHdr := congrArg (fun result => result.2.hdr) decoded
      dsimp only at sameHdr
      rw [decodePayload_hdr] at sameHdr
      split
      · rw [← sameHdr]
        refine .inr (.inl ⟨_,_,?_,headed,rfl⟩)
        exact ⟨⟨rfl,rfl,rfl⟩,rfl,rfl,rfl⟩
      · exact .inl ⟨⟨rfl,rfl,rfl⟩,rfl,rfl,rfl⟩
  · exact .inl ⟨⟨rfl,rfl,rfl⟩,rfl,rfl,rfl⟩

end
end LoraRan.Node
