import LoraRan.Node.Sends

namespace LoraRan.Node
open Protocol Config

-- The payload's own request.
def MadeFor (d : Delivery) : CallKind → Prop
  | .execute cmd => d.hdr.type = .command ∧ Command.deserialize d.payload = some cmd
  | .rollContext => d.hdr.type = .command ∧ ∃ cmd, Command.deserialize d.payload = some cmd ∧ cmd.cmd = cmdRollContext
  | .configSet entry | .phySet entry => d.hdr.type = .config ∧ ∃ config, NodeConfigV1.deserialize d.payload = some config ∧
      config.op = configOpSet ∧ entry ∈ config.entries
  | .configRestoreDefaults => d.hdr.type = .config ∧ ∃ config, NodeConfigV1.deserialize d.payload = some config ∧
      config.op = configOpRestoreDefaults
  | .hexForward hex => d.hdr.type = .hexReq ∧ ∃ req, HexReq.deserialize d.payload = some req ∧ req.hex = hex

-- The gate's word on it. A roll and a read of the charger ask the gate nothing.
def PassedGate (gate : CommandGate) (d : Delivery) : CallKind → Prop
  | .rollContext => True
  | .hexForward _ => hexReqIsWriteClass d.payload = true → (gate.check d.hdr.seq).1.verdict = .execute
  | _ => (gate.check d.hdr.seq).1.verdict = .execute

def Permitted (gate : CommandGate) (d : Delivery) (kind : CallKind) : Prop := MadeFor d kind ∧ PassedGate gate d kind

section
variable {σ : Type}

-- The application's own runs, and forwards of the strings `F` admits.
inductive AppActs (ops : Application σ) (F : Bytes → Prop) : σ → σ → Prop
  | runs {a b} : AppRuns ops a b → AppActs ops F a b
  | forward (a c hex nowMs) : F hex → AppActs ops F a (ops.hexForward a c hex nowMs).2
  | trans {a b c} : AppActs ops F a b → AppActs ops F b c → AppActs ops F a c

theorem AppActs.weaken {ops : Application σ} {F G : Bytes → Prop} {a b : σ} (acts : AppActs ops F a b)
    (implied : ∀ hex, F hex → G hex) : AppActs ops G a b := by
  induction acts with
  | runs moved => exact .runs moved
  | forward a c hex nowMs admitted => exact .forward a c hex nowMs (implied hex admitted)
  | trans _ _ first second => exact first.trans second

-- What a handler can do to a node besides sending: every call is one `K` admits and is made for the payload in hand,
-- and of the reassembler only its timeout moves.
structure Acts (ops : Application σ) (K : CallKind → Prop) (n n' : Engine σ) : Prop where
  id : n'.ctx.id = n.ctx.id
  key : n'.ctx.key = n.ctx.key
  context : n.ctx.ctxId ≠ 0 → n'.ctx.ctxId ≠ 0
  reassembler : ∃ ms, n'.ctx.reassembler = n.ctx.reassembler.setTimeoutMs ms
  serving : n'.serving = n.serving
  calls : ∃ made, n'.calls = made ++ n.calls ∧ ∀ c ∈ made, c.serving = n.serving ∧ K c.kind
  app : AppActs ops (fun hex => K (.hexForward hex)) n.app n'.app

variable {mac : Mac} {ops : Application σ} {K : CallKind → Prop} {P : Header → Bytes → Prop} {n n' n'' : Engine σ}

theorem Acts.trans (first : Acts ops K n n') (second : Acts ops K n' n'') : Acts ops K n n'' := by
  obtain ⟨ms,reassembler⟩ := first.reassembler
  obtain ⟨ms',reassembler'⟩ := second.reassembler
  obtain ⟨made,calls,fit⟩ := first.calls
  obtain ⟨made',calls',fit'⟩ := second.calls
  refine ⟨second.id.trans first.id,second.key.trans first.key,fun nonzero => second.context (first.context nonzero),
    ⟨ms',?_⟩,second.serving.trans first.serving,⟨made' ++ made,?_,?_⟩,first.app.trans second.app⟩
  · rw [reassembler',reassembler]
    rfl
  · rw [calls',calls,List.append_assoc]
  · intro c member
    rcases List.mem_append.mp member with late | early
    · rw [← first.serving]
      exact fit' c late
    · exact fit c early

-- A step that asks nothing of the application and leaves the receiving side of the context alone.
structure Alike (n n' : Engine σ) : Prop where
  id : n'.ctx.id = n.ctx.id
  key : n'.ctx.key = n.ctx.key
  ctxId : n'.ctx.ctxId = n.ctx.ctxId
  reassembler : n'.ctx.reassembler = n.ctx.reassembler
  serving : n'.serving = n.serving
  calls : n'.calls = n.calls
  app : n'.app = n.app

theorem Acts.quiet (alike : Alike n n') : Acts ops K n n' := by
  refine ⟨alike.id,alike.key,fun nonzero => alike.ctxId ▸ nonzero,⟨n.ctx.reassembler.timeoutMs,alike.reassembler⟩,alike.serving,
    ⟨[],alike.calls,by simp⟩,?_⟩
  rw [alike.app]
  exact .runs (.refl _)

theorem Acts.after (m : Engine σ) (acts : Acts ops K m n') (alike : Alike n m) : Acts ops K n n' := (Acts.quiet alike).trans acts

theorem Acts.refl (n : Engine σ) : Acts ops K n n := Acts.quiet ⟨rfl,rfl,rfl,rfl,rfl,rfl,rfl⟩

theorem Sends.acts (sends : Sends mac ops P n n') : Acts ops K n n' := by
  obtain ⟨_,_,_,ctx⟩ := sends.ctx
  refine ⟨?_,?_,?_,⟨n.ctx.reassembler.timeoutMs,?_⟩,sends.serving,⟨[],sends.calls,by simp⟩,.runs sends.app⟩
  all_goals rw [ctx]
  · exact id
  · rfl

theorem Acts.of_app (app : σ) (moved : AppRuns ops n.app app) (acts : Acts ops K {n with app := app} n') : Acts ops K n n' :=
  ⟨acts.id,acts.key,acts.context,acts.reassembler,acts.serving,acts.calls,(AppActs.runs moved).trans acts.app⟩

theorem call_acts (n : Engine σ) (kind : CallKind) (admitted : K kind) : Acts ops K n (n.call kind) := by
  refine ⟨rfl,rfl,fun nonzero => nonzero,⟨n.ctx.reassembler.timeoutMs,rfl⟩,rfl,⟨[⟨kind,n.serving⟩],rfl,?_⟩,.runs (.refl _)⟩
  intro c member
  obtain rfl := List.mem_singleton.mp member
  exact ⟨rfl,admitted⟩

theorem tune_acts (n : Engine σ) (tunings : List Tuning) : Acts ops K n (n.tune tunings) := by
  suffices kept : ∀ c : Context, (tunings.foldl Tuning.apply c).id = c.id ∧ (tunings.foldl Tuning.apply c).key = c.key ∧
      (tunings.foldl Tuning.apply c).ctxId = c.ctxId ∧
      ∃ ms, (tunings.foldl Tuning.apply c).reassembler = c.reassembler.setTimeoutMs ms by
    obtain ⟨id,key,ctxId,reassembler⟩ := kept n.ctx
    exact ⟨id,key,fun nonzero => by rw [Engine.tune,ctxId]; exact nonzero,reassembler,rfl,⟨[],rfl,by simp⟩,.runs (.refl _)⟩
  induction tunings with
  | nil => exact fun c => ⟨rfl,rfl,rfl,c.reassembler.timeoutMs,rfl⟩
  | cons tuning rest ih =>
      intro c
      obtain ⟨id,key,ctxId,ms,reassembler⟩ := ih (tuning.apply c)
      cases tuning with
      | cacheDepth depth => exact ⟨id,key,ctxId,ms,reassembler⟩
      | fragTimeoutMs ms' => exact ⟨id,key,ctxId,ms,reassembler⟩

variable (mac ops)

theorem setEntry_acts (n : Engine σ) (entry : ConfigEntry) (admitted : K (.configSet entry) ∧ K (.phySet entry)) :
    Acts ops K n (n.setEntry ops entry).2 := by
  unfold Engine.setEntry
  split
  · exact (call_acts n _ admitted.2).trans (Acts.quiet ⟨rfl,rfl,rfl,rfl,rfl,rfl,rfl⟩)
  · dsimp only
    refine (call_acts n (.configSet entry) admitted.1).trans (Acts.of_app _ (.configSet n.app n.ctx entry) ?_)
    exact tune_acts _ _

theorem setEntries_acts (n : Engine σ) (entries : List ConfigEntry)
    (admitted : ∀ entry ∈ entries, K (.configSet entry) ∧ K (.phySet entry)) : Acts ops K n (n.setEntries ops entries).2 := by
  induction entries generalizing n with
  | nil => exact Acts.refl n
  | cons entry rest ih =>
      unfold Engine.setEntries
      dsimp only
      exact (setEntry_acts ops n entry (admitted entry (by simp))).trans
        (ih _ fun later member => admitted later (List.mem_cons_of_mem _ member))

theorem getEntries_acts (n : Engine σ) (entries : List ConfigEntry) : Acts ops K n (n.getEntries ops entries).2 := by
  induction entries generalizing n with
  | nil => exact Acts.refl n
  | cons entry rest ih =>
      unfold Engine.getEntries
      dsimp only
      refine Acts.trans ?_ (ih _)
      unfold Engine.getEntry
      split
      · exact Acts.refl n
      · exact Acts.of_app _ (.configGet n.app n.ctx entry.paramId) (Acts.refl _)

theorem listAll_acts (n : Engine σ) : Acts ops K n (n.listAll ops).2 := Acts.of_app _ (.configList n.app n.ctx) (Acts.refl _)

theorem closeSet_acts (n : Engine σ) (entries : List ConfigEntry) (results : List ConfigAckEntry) (nowMs : UInt32) :
    Acts ops K n (n.closeSet ops entries results nowMs) := by
  unfold Engine.closeSet
  dsimp only
  split
  · exact Acts.refl n
  · exact Acts.quiet ⟨rfl,rfl,rfl,rfl,rfl,rfl,rfl⟩

theorem applyConfig_acts (n : Engine σ) (config : NodeConfigV1) (nowMs : UInt32)
    (set : config.op = configOpSet → ∀ entry ∈ config.entries, K (.configSet entry) ∧ K (.phySet entry))
    (restore : config.op = configOpRestoreDefaults → K .configRestoreDefaults) :
    Acts ops K n (n.applyConfig ops config nowMs).2 := by
  unfold Engine.applyConfig
  split
  · rename_i isSet
    exact (setEntries_acts ops n config.entries (set isSet)).trans (closeSet_acts ops _ _ _ _)
  · split
    · exact getEntries_acts ops n config.entries
    · split
      · exact listAll_acts ops n
      · split
        · rename_i isRestore
          refine (call_acts n .configRestoreDefaults (restore isRestore)).trans (Acts.of_app _ (.configRestoreDefaults n.app n.ctx) ?_)
          exact (tune_acts _ _).trans (listAll_acts ops _)
        · exact Acts.refl n

theorem onConfig_acts (n : Engine σ) (hdr : Header) (payload : Bytes) (nowMs : UInt32) (typed : hdr.type = .config) :
    Acts ops (Permitted n.ctx.gate ⟨hdr,payload⟩) n (n.onConfig mac ops hdr payload nowMs) := by
  unfold Engine.onConfig
  dsimp only
  refine Acts.of_app _ (.withhold n.app n.ctx .config hdr) ?_
  split
  · exact Acts.refl _
  · refine Acts.after (Engine.setGate _ (n.ctx.gate.check hdr.seq).2) ?_ ⟨rfl,rfl,rfl,rfl,rfl,rfl,rfl⟩
    split
    · split
      · rename_i config _
        split
        · rename_i reads
          -- A repeat is answered from the store; neither operation of the guard writes.
          refine Acts.trans (applyConfig_acts ops _ config nowMs ?_ ?_) (sendConfigAnswer_sends mac ops _ _ _ _).acts
          · intro isSet
            rcases reads with isGet | isGetAll
            · exact absurd (isSet.symm.trans isGet) (by decide)
            · exact absurd (isSet.symm.trans isGetAll) (by decide)
          · intro isRestore
            rcases reads with isGet | isGetAll
            · exact absurd (isRestore.symm.trans isGet) (by decide)
            · exact absurd (isRestore.symm.trans isGetAll) (by decide)
        · exact (sendAck_sends mac ops _ _ _ _ _).acts
      · exact (sendAck_sends mac ops _ _ _ _ _).acts
    · exact Acts.refl _
    · exact (sendAck_sends mac ops _ _ _ _ _).acts
    · rename_i executes
      split
      · exact Acts.after _ (sendConfigAck_sends mac ops _ _ _ _).acts ⟨rfl,rfl,rfl,rfl,rfl,rfl,rfl⟩
      · rename_i config parsed
        let ready := Engine.confirmPhy (Engine.setGate {n with app := (ops.withhold n.app n.ctx .config hdr).2} (n.ctx.gate.check hdr.seq).2)
        refine Acts.after {ready with ctx := {ready.ctx with executions := ready.ctx.executions + 1}} ?_ ⟨rfl,rfl,rfl,rfl,rfl,rfl,rfl⟩
        refine Acts.trans (applyConfig_acts ops _ config nowMs ?_ ?_) (Acts.after _ (sendConfigAnswer_sends mac ops _ _ _ _).acts ⟨rfl,rfl,rfl,rfl,rfl,rfl,rfl⟩)
        · exact fun isSet entry member => ⟨⟨⟨typed,config,parsed,isSet,member⟩,executes⟩,⟨⟨typed,config,parsed,isSet,member⟩,executes⟩⟩
        · exact fun isRestore => ⟨⟨typed,config,parsed,isRestore⟩,executes⟩

theorem finishCommand_acts (n : Engine σ) (nowMs : UInt32) : Acts ops K n (n.finishCommand mac ops nowMs) := by
  unfold Engine.finishCommand
  split
  · exact Acts.refl n
  · dsimp only
    generalize recorded : {n with ctx := _} = m
    have acked : Acts ops K n (m.sendFreshAck mac ops n.ctx.pending.peer n.ctx.pending.seq n.ctx.pending.result n.ctx.pending.detail) := by
      subst recorded
      exact Acts.after _ (sendFreshAck_sends mac ops _ _ _ _ _).acts ⟨rfl,rfl,rfl,rfl,rfl,rfl,rfl⟩
    split
    · exact acked
    · exact acked.trans (sendStatus_sends mac ops _ _ _ _).acts
    · exact acked.trans (sendConfigReadback_sends mac ops _ _).acts
    · exact acked.trans (Acts.quiet ⟨rfl,rfl,rfl,rfl,rfl,rfl,rfl⟩)

theorem rolled_acts (n : Engine σ) (random : RandomFn) : Acts ops K n {n with ctx := rollContext n.ctx random} :=
  ⟨rfl,rfl,fun _ => rollCtxId_ne_zero random n.ctx.ctxId,⟨n.ctx.reassembler.timeoutMs,rfl⟩,rfl,⟨[],rfl,by simp⟩,.runs (.refl _)⟩

theorem onRoll_acts (n : Engine σ) (hdr : Header) (cmd : Command) (random : RandomFn) (admitted : K .rollContext) :
    Acts ops K n (n.onRoll mac ops hdr cmd random) := by
  unfold Engine.onRoll
  split
  · exact (sendAck_sends mac ops _ _ _ _ _).acts
  · split
    · exact (sendAck_sends mac ops _ _ _ _ _).acts
    · dsimp only
      have called : Acts ops K n (n.confirmPhy.call .rollContext) :=
        Acts.after n.confirmPhy (call_acts n.confirmPhy .rollContext admitted) ⟨rfl,rfl,rfl,rfl,rfl,rfl,rfl⟩
      exact (called.trans (rolled_acts ops _ random)).trans (sendFreshAck_sends mac ops _ _ _ _ _).acts

theorem answerRollOnly_acts (n n' : Engine σ) (hdr : Header) (payload : Bytes) (random : RandomFn) (typed : hdr.type = .command)
    (answered : n.answerRollOnly mac ops hdr payload random = some n') : Acts ops (Permitted n.ctx.gate ⟨hdr,payload⟩) n n' := by
  unfold Engine.answerRollOnly at answered
  split at answered
  · cases answered
  · rename_i cmd parsed
    split at answered
    · cases answered
    · rename_i isRoll
      cases answered
      refine Acts.of_app _ (.withhold n.app n.ctx .roll hdr) ?_
      split
      · exact Acts.refl _
      · exact onRoll_acts mac ops _ hdr cmd random ⟨⟨typed,cmd,parsed,not_not.mp isRoll⟩,trivial⟩

theorem runCommand_acts (n : Engine σ) (hdr : Header) (cmd : Command) (nowMs : UInt32) (admitted : K (.execute cmd)) :
    Acts ops K n (n.runCommand mac ops hdr cmd nowMs) := by
  unfold Engine.runCommand
  dsimp only
  refine Acts.after n.confirmPhy ?_ ⟨rfl,rfl,rfl,rfl,rfl,rfl,rfl⟩
  split
  · exact Acts.after _ (sendFreshAck_sends mac ops _ _ _ _ _).acts ⟨rfl,rfl,rfl,rfl,rfl,rfl,rfl⟩
  · refine (call_acts n.confirmPhy (.execute cmd) admitted).trans (Acts.of_app _ (.execute n.app n.ctx cmd nowMs) ?_)
    split
    · exact Acts.quiet ⟨rfl,rfl,rfl,rfl,rfl,rfl,rfl⟩
    · exact Acts.after _ (finishCommand_acts mac ops _ nowMs) ⟨rfl,rfl,rfl,rfl,rfl,rfl,rfl⟩

theorem onCommand_acts (n : Engine σ) (hdr : Header) (payload : Bytes) (random : RandomFn) (nowMs : UInt32)
    (typed : hdr.type = .command) :
    Acts ops (Permitted n.ctx.gate ⟨hdr,payload⟩) n (n.onCommand mac ops hdr payload random nowMs) := by
  unfold Engine.onCommand
  dsimp only
  refine Acts.of_app _ (.withhold n.app n.ctx .command hdr) ?_
  split
  · exact Acts.refl _
  · split
    · exact Acts.quiet ⟨rfl,rfl,rfl,rfl,rfl,rfl,rfl⟩
    · rename_i cmd parsed
      refine Acts.of_app _ (.forceRejectCtx _ n.ctx hdr) ?_
      split
      · exact (sendAck_sends mac ops _ _ _ _ _).acts
      · split
        · rename_i isRoll
          exact onRoll_acts mac ops _ hdr cmd random ⟨⟨typed,cmd,parsed,isRoll⟩,trivial⟩
        · refine Acts.after (Engine.setGate _ (n.ctx.gate.check hdr.seq).2) ?_ ⟨rfl,rfl,rfl,rfl,rfl,rfl,rfl⟩
          split
          · rename_i executes
            exact runCommand_acts mac ops _ hdr cmd nowMs ⟨⟨typed,parsed⟩,executes⟩
          · exact (sendAck_sends mac ops _ _ _ _ _).acts
          · exact Acts.refl _
          · exact (sendAck_sends mac ops _ _ _ _ _).acts

theorem forwardHex_acts (n : Engine σ) (hdr : Header) (payload : Bytes) (nowMs : UInt32)
    (admitted : ∀ req, HexReq.deserialize payload = some req → K (.hexForward req.hex)) :
    Acts ops K n (n.forwardHex mac ops hdr payload nowMs) := by
  unfold Engine.forwardHex
  split
  · exact (sendHexRsp_sends mac ops _ _ _ _ _).acts
  · rename_i req parsed
    split
    · exact (sendHexRsp_sends mac ops _ _ _ _ _).acts
    · split
      · exact (sendHexRsp_sends mac ops _ _ _ _ _).acts
      · dsimp only
        have forwarded : Acts ops K n {n.call (.hexForward req.hex) with app := (ops.hexForward n.app n.ctx req.hex nowMs).2} :=
          (call_acts n (.hexForward req.hex) (admitted req parsed)).trans
            ⟨rfl,rfl,fun nonzero => nonzero,⟨n.ctx.reassembler.timeoutMs,rfl⟩,rfl,⟨[],rfl,by simp⟩,
              .forward n.app n.ctx req.hex nowMs (admitted req parsed)⟩
        split
        · exact forwarded.trans (Acts.quiet ⟨rfl,rfl,rfl,rfl,rfl,rfl,rfl⟩)
        · exact forwarded.trans (sendHexRsp_sends mac ops _ _ _ _ _).acts

theorem onHexReq_acts (n : Engine σ) (hdr : Header) (payload : Bytes) (nowMs : UInt32) (typed : hdr.type = .hexReq) :
    Acts ops (Permitted n.ctx.gate ⟨hdr,payload⟩) n (n.onHexReq mac ops hdr payload nowMs) := by
  unfold Engine.onHexReq
  dsimp only
  refine Acts.of_app _ (.withhold n.app n.ctx .hexReq hdr) ?_
  split
  · exact Acts.refl _
  · split
    · split
      · rename_i executes
        refine Acts.after _ (forwardHex_acts mac ops _ hdr payload nowMs ?_) ⟨rfl,rfl,rfl,rfl,rfl,rfl,rfl⟩
        exact fun req parsed => ⟨⟨typed,req,parsed,rfl⟩,fun _ => executes⟩
      · exact Acts.after _ (sendAck_sends mac ops _ _ _ _ _).acts ⟨rfl,rfl,rfl,rfl,rfl,rfl,rfl⟩
      · exact Acts.quiet ⟨rfl,rfl,rfl,rfl,rfl,rfl,rfl⟩
      · exact Acts.after _ (sendAck_sends mac ops _ _ _ _ _).acts ⟨rfl,rfl,rfl,rfl,rfl,rfl,rfl⟩
    · rename_i reads
      refine Acts.after _ (forwardHex_acts mac ops _ hdr payload nowMs ?_) ⟨rfl,rfl,rfl,rfl,rfl,rfl,rfl⟩
      exact fun req parsed => ⟨⟨typed,req,parsed,rfl⟩,fun writes => absurd writes reads⟩

theorem answerAll_acts (n : Engine σ) (nowMs : UInt32) (answers : Option (List Answer)) : Acts ops K n (n.answerAll mac ops nowMs answers) := by
  unfold Engine.answerAll
  split
  · exact Acts.quiet ⟨rfl,rfl,rfl,rfl,rfl,rfl,rfl⟩
  · exact (answers_sends mac ops n nowMs _).acts

theorem dispatch_acts (n : Engine σ) (hdr : Header) (payload : Bytes) (fragments : UInt8) (random : RandomFn) (nowMs : UInt32) :
    Acts ops (Permitted n.ctx.gate ⟨hdr,payload⟩) n (n.dispatch mac ops hdr payload fragments random nowMs) := by
  unfold Engine.dispatch
  dsimp only
  split
  · exact Acts.refl n
  · exact Acts.of_app _ (.onPing n.app n.ctx hdr payload fragments nowMs) (answerAll_acts mac ops _ nowMs _)
  · exact Acts.of_app _ (.onPoll n.app n.ctx hdr payload nowMs) (answerAll_acts mac ops _ nowMs _)
  · rename_i typed
    split
    · exact onCommand_acts mac ops n hdr payload random nowMs typed
    · cases answered : n.answerRollOnly mac ops hdr payload random with
      | none => exact Acts.quiet ⟨rfl,rfl,rfl,rfl,rfl,rfl,rfl⟩
      | some next => exact answerRollOnly_acts mac ops n next hdr payload random typed answered
  · rename_i typed
    split
    · exact onHexReq_acts mac ops n hdr payload nowMs typed
    · exact Acts.quiet ⟨rfl,rfl,rfl,rfl,rfl,rfl,rfl⟩
  · rename_i typed
    split
    · exact onConfig_acts mac ops n hdr payload nowMs typed
    · exact Acts.quiet ⟨rfl,rfl,rfl,rfl,rfl,rfl,rfl⟩
  · exact Acts.quiet ⟨rfl,rfl,rfl,rfl,rfl,rfl,rfl⟩

-- A delivery is in hand from its first send to its last, and in no other step.
theorem deliver_acts (n : Engine σ) (hdr : Header) (payload : Bytes) (fragments : UInt8) (random : RandomFn) (nowMs : UInt32) :
    ∃ served, Acts ops (Permitted n.ctx.gate ⟨hdr,payload⟩) {n with serving := some ⟨hdr,payload⟩} served ∧
      n.deliver mac ops hdr payload fragments random nowMs = {served with serving := none} := by
  unfold Engine.deliver
  dsimp only
  split
  · let taken : Engine σ := {n with serving := some ⟨hdr,payload⟩}
    have reported := sendPhyReverted_sends mac ops taken hdr.src nowMs
    obtain ⟨_,_,_,ctx⟩ := reported.ctx
    have dispatched := dispatch_acts mac ops (taken.sendPhyReverted mac ops hdr.src nowMs) hdr payload fragments random nowMs
    rw [ctx] at dispatched
    exact ⟨_,Acts.trans (Acts.after _ reported.acts ⟨rfl,rfl,rfl,rfl,rfl,rfl,rfl⟩) dispatched,rfl⟩
  · exact ⟨_,dispatch_acts mac ops {n with serving := some ⟨hdr,payload⟩} hdr payload fragments random nowMs,rfl⟩

theorem refuseAuthenticated_acts (n : Engine σ) (hdr : Header) (why : Status) : Acts ops K n (n.refuseAuthenticated mac hdr why) := by
  unfold Engine.refuseAuthenticated
  dsimp only
  generalize (if why = .rejectedCtx then AckResult.rejectedCtx else .rejectedMac) = result
  split
  · exact Acts.refl n
  · split
    · split
      · exact Acts.after _ (sendHexRsp_sends mac ops _ _ _ _ _).acts ⟨rfl,rfl,rfl,rfl,rfl,rfl,rfl⟩
      · exact Acts.after _ (sendAck_sends mac ops _ _ _ _ _).acts ⟨rfl,rfl,rfl,rfl,rfl,rfl,rfl⟩
    · split
      · exact Acts.refl n
      · exact (sendAck_sends mac ops _ _ _ _ _).acts

theorem announceBoot_acts (n : Engine σ) (cause : UInt8) (nowMs : UInt32) : Acts ops K n (n.announceBoot mac ops cause nowMs).2 := by
  unfold Engine.announceBoot
  dsimp only
  let m := (n.sendStatus mac ops nodeBridge .boot nowMs).2
  have ready : Acts ops K n {m with app := (ops.buildEvent m.app m.ctx .boot (resetCauseDetail cause) nowMs).2} :=
    (sendStatus_sends mac ops n nodeBridge .boot nowMs).acts.trans (Acts.of_app _ (.buildEvent m.app m.ctx _ _ nowMs) (Acts.refl _))
  split
  · exact ready.trans (Acts.quiet ⟨rfl,rfl,rfl,rfl,rfl,rfl,rfl⟩)
  · split
    · exact ready.trans (sendEvent_sends mac ops _ _ _ _).acts
    · exact ready.trans ((sendEvent_sends mac ops _ _ _ _).acts.trans (Acts.quiet ⟨rfl,rfl,rfl,rfl,rfl,rfl,rfl⟩))

theorem completeHex_acts (n : Engine σ) (status : HexStatus) (hex : Bytes) : Acts ops K n (n.completeHex mac status hex).2 := by
  unfold Engine.completeHex
  split
  · exact Acts.refl n
  · exact Acts.after _ (sendHexRsp_sends mac ops _ _ _ _ _).acts ⟨rfl,rfl,rfl,rfl,rfl,rfl,rfl⟩

theorem tickHex_acts (n : Engine σ) (nowMs : UInt32) : Acts ops K n (n.tickHex mac nowMs) := by
  unfold Engine.tickHex
  dsimp only
  split
  · exact Acts.refl n
  · exact Acts.after _ (sendHexRsp_sends mac ops _ _ _ _ _).acts ⟨rfl,rfl,rfl,rfl,rfl,rfl,rfl⟩

end
end LoraRan.Node
