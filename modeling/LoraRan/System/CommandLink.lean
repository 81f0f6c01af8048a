import LoraRan.Bridge.CommandPath
import LoraRan.Library.StepSystem
import LoraRan.Node.Commanding

namespace LoraRan.System.CommandLink
open Protocol Node Bridge Library.StepSystem Library.Serial

-- A COMMAND frame's place in the run: the submission it was sent for, `none` for a roll, and the pair it carries.
structure Mark where
  submission : Option Nat
  ctx : CtxId
  seq : Seq
  deriving DecidableEq

-- A submission as the path accepted it. Its number is its place in the list.
structure Given where
  req : CommandRequest
  ctx : CtxId
  seq : Seq
  deriving DecidableEq

structure Resolution where
  submission : Nat
  outcome : CmdOutcome
  result : UInt8
  detail : UInt8
  answer : Option (Bytes × Mark)
  deriving DecidableEq

-- One command path and one node. A frame on the air stays there, to be delivered late, twice or never. Everything below
-- `air` is the observer's: no step reads it.
structure Link (σ : Type) where
  path : CommandPath := {}
  node : Engine σ
  sent : List (Bytes × Mark) := []
  air : List (Bytes × Mark) := []
  queue : List (Bytes × Mark) := []
  given : List Given := []
  answer : Option (Bytes × Mark) := none
  resolved : List Resolution := []
  executed : List Mark := []
  holding : Mark := ⟨none,0,0⟩
  used : List CtxId
  travelled : Nat := 0

-- What a node does without a COMMAND, the trial radio settings and the application's own work left free.
inductive OwnInput (σ : Type) where
  | tick (nowMs : UInt32)
  | announceBoot (cause : UInt8) (nowMs : UInt32)
  | notePhyRevert (cause : RevertCause)
  | board (phy : PhyTrial)
  | app (app : σ)

inductive Input (σ : Type) where
  | submit (req : CommandRequest) (ctx : CtxId) (seq : Seq) (nowMs : UInt32)
  | tick (nowMs : UInt32) (queued : Bool) (ver : UInt8)
  | aired (airedMs : UInt32)
  | setParams (ackTimeoutMs : UInt32) (retries : UInt8)
  | sendRoll (dst : NodeId) (ctx : CtxId) (seq : Seq) (ver : UInt8)
  | deliver (i : Nat) (random : RandomFn) (nowMs : UInt32)
  | finish (nowMs : UInt32)
  | finishWith (nowMs : UInt32) (result : AckResult)
  | tune (tunings : List Tuning)
  | own (input : OwnInput σ)
  | reboot (random : RandomFn) (phy : PhyTrial) (app : σ)
  | transmit
  | hear (i : Nat) (nowMs : UInt32)

def isExecute : CallKind → Bool
  | .execute _ => true
  | _ => false

def rollCommand : Command := ⟨cmdRollContext,rollContextGuard,0⟩

-- The receive side of the bridge, as far as a COMMAND_ACK goes.
def ackHeard (listen : DecodeCtx) (bytes : Bytes) : Option (NodeId × CommandAck × CtxId) :=
  match decodeHeader bytes listen with
  | (.ok,head) =>
      match decodePayload bytes listen head with
      | (.ok,f) => if f.hdr.type = .commandAck then (CommandAck.deserialize f.payload).map fun ack => (f.hdr.src,ack,f.hdr.ctxId) else none
      | _ => none
  | _ => none

section
variable {σ : Type}

def executes (n : Engine σ) : Nat := (n.calls.map Call.kind).countP isExecute

def Link.current (s : Link σ) : Nat := s.given.length - 1

-- The node moved on account of the frame `mark` names.
def Link.after (s : Link σ) (mark : Mark) (n : Engine σ) : Link σ :=
  {s with
    node := n
    queue := s.queue ++ (n.outbox.drop s.node.outbox.length).map fun bytes => (bytes,mark)
    executed := List.replicate (executes n - executes s.node) mark ++ s.executed
    holding := if executes n = executes s.node then s.holding else mark
    used := n.ctx.ctxId :: s.used
    travelled := if n.ctx.ctxId = s.node.ctx.ctxId then s.travelled + advance n.ctx.gate.highWater s.node.ctx.gate.highWater else 0}

def booted (id : NodeId) (ver : UInt8) (key : NodeKey) (random : RandomFn) (phy : PhyTrial) (app : σ) : Engine σ :=
  {ctx := resetContext {id := id,protoVer := ver,key := key} random,phy := phy,app := app}

variable (mac : Mac) (ops : Application σ) (keys : NodeId → NodeKey) (listen : DecodeCtx)

def frameFor (dst : NodeId) (ctx : CtxId) (seq : Seq) (ver : UInt8) (cmd : Command) : Option Bytes :=
  buildCommandFrame dst ctx seq ver cmd {mac := some mac,nodeKey := some (keys dst)} maxFrame

-- One turn of the caller: a frame the queue takes is reported with onSent.
def Link.turn (s : Link σ) (nowMs : UInt32) (queued : Bool) (ver : UInt8) : Link σ :=
  let (st,p) := s.path.next nowMs
  match st.action with
  | .none => {s with path := p}
  | .resolve => {s with path := p,resolved := ⟨s.current,st.outcome,st.result,st.detail,s.answer⟩ :: s.resolved}
  | .send =>
      match frameFor mac keys st.dst st.ctxId st.seq ver ⟨st.cmd,st.arg,st.arg2⟩ with
      | none => {s with path := p}
      | some bytes =>
          if queued then {s with path := p.onSent nowMs,sent := s.sent ++ [(bytes,⟨some s.current,st.ctxId,st.seq⟩)]}
          else {s with path := p}

def ownStep (n : Engine σ) : OwnInput σ → Engine σ
  | .tick nowMs => n.tick mac nowMs
  | .announceBoot cause nowMs => (n.announceBoot mac ops cause nowMs).2
  | .notePhyRevert cause => n.notePhyRevert cause
  | .board phy => {n with phy := phy}
  | .app app => {n with app := app}

def Link.hear (s : Link σ) (frame : Bytes × Mark) (nowMs : UInt32) : Link σ :=
  match ackHeard listen frame.1 with
  | none => s
  | some (src,ack,ctx) => {s with
      path := s.path.onAck src ack ctx nowMs
      answer := if s.path.Matches src ack then some frame else s.answer}

def step (s : Link σ) : Input σ → Link σ
  | .submit req ctx seq nowMs =>
      match s.path.submit req ctx seq nowMs with
      | (true,p) => {s with path := p,given := s.given ++ [⟨req,ctx,seq⟩],answer := none}
      | (false,p) => {s with path := p}
  | .tick nowMs queued ver => s.turn mac keys nowMs queued ver
  | .aired airedMs => {s with path := s.path.onAired airedMs}
  | .setParams ackTimeoutMs retries => {s with path := {s.path with ackTimeoutMs := ackTimeoutMs,retries := retries}}
  | .sendRoll dst ctx seq ver =>
      match frameFor mac keys dst ctx seq ver rollCommand with
      | none => s
      | some bytes => {s with sent := s.sent ++ [(bytes,⟨none,ctx,seq⟩)]}
  | .deliver i random nowMs =>
      match s.sent[i]? with
      | none => s
      | some (bytes,mark) => s.after mark (s.node.receive mac ops bytes random nowMs)
  | .finish nowMs => s.after s.holding (s.node.finishCommand mac ops nowMs)
  | .finishWith nowMs result => s.after s.holding (s.node.finishCommandWith mac ops nowMs result)
  | .tune tunings => s.after s.holding (s.node.tune tunings)
  | .own input => s.after s.holding (ownStep mac ops s.node input)
  | .reboot random phy app =>
      let n := booted s.node.ctx.id s.node.ctx.protoVer s.node.ctx.key random phy app
      {s with node := {n with calls := s.node.calls},queue := [],used := n.ctx.ctxId :: s.used,travelled := 0}
  | .transmit => {s with node := {s.node with outbox := s.node.outbox.drop 1},air := s.air ++ s.queue.take 1,queue := s.queue.drop 1}
  | .hear i nowMs =>
      match s.air[i]? with
      | none => s
      | some frame => s.hear listen frame nowMs

def start (id : NodeId) (ver : UInt8) (random : RandomFn) (phy : PhyTrial) (app : σ) : Link σ :=
  {node := booted id ver (keys id) random phy app,used := [(newCtxId random 0).1]}

-- The command a frame carries.
def Link.Carries (s : Link σ) (mark : Mark) (cmd : Command) : Prop :=
  match mark.submission with
  | none => cmd = rollCommand
  | some k => ∃ g, s.given[k]? = some g ∧ g.req.command = cmd

def Link.InFlight (s : Link σ) : Prop := s.path.phase = .sendDue ∨ s.path.phase = .awaiting

-- What every run keeps, whatever the bridge submits and the network does.
structure Wired (s : Link σ) : Prop where
  key : s.node.ctx.key = keys s.node.ctx.id
  context : s.node.ctx.ctxId ≠ 0
  queued : s.queue.map Prod.fst = s.node.outbox
  flight : s.InFlight → ∃ g, s.given[s.current]? = some g ∧ g.req = s.path.req
  sent : ∀ frame ∈ s.sent, ∃ dst ver cmd, s.Carries frame.2 cmd ∧
    encode (commandHeader dst frame.2.ctx frame.2.seq ver) cmd.serialize {mac := some mac,nodeKey := some (keys dst)} maxFrame = .ok frame.1

-- What a node does without serving a COMMAND: what it queues and where it leaves the core.
inductive Rest (s : Link σ) (mark : Mark) : (Header → Bytes → Prop) → Core → Prop
  | answered (result : AckResult) (detail : UInt8) : s.node.ctx.pending.active = true → mark = s.holding →
      Rest s mark (Answers s.node.ctx.id s.node.ctx.ctxId ⟨s.node.ctx.pending.seq,result.code,detail⟩)
        (Core.finished {s.node.ctx.core with pending := {s.node.ctx.pending with result := result,detail := detail}})
  | own : Rest s mark NoAck s.node.ctx.core
  | idle (pending : PendingCommand) : s.node.ctx.pending.active = false → pending.active = false →
      Rest s mark NoAck {s.node.ctx.core with pending := pending}
  | tuned (depths : List UInt8) : Rest s mark NoAck {s.node.ctx.core with gate := depths.foldl CommandGate.setCacheDepth s.node.ctx.gate}

-- Everything that moves the node, with the calls it costs.
inductive Cause (s : Link σ) (mark : Mark) : (Header → Bytes → Prop) → Core → List CallKind → Prop
  | rest {P core} : Rest s mark P core → Cause s mark P core []
  | refused : Cause s mark (Answers s.node.ctx.id s.node.ctx.ctxId ⟨mark.seq,AckResult.rejectedCtx.code,0⟩) s.node.ctx.core []
  | served {P core made} (cmd : Command) : s.Carries mark cmd → mark.ctx = s.node.ctx.ctxId →
      Outcome s.node.ctx.core mark.seq cmd.serialize P core made → Cause s mark P core made

def Link.Rests (s : Link σ) (mark : Mark) (n : Engine σ) : Prop := ∃ P core, Rest s mark P core ∧ Effect mac P s.node n core []

def Link.Moves (s : Link σ) (mark : Mark) (n : Engine σ) : Prop := ∃ P core made, Cause s mark P core made ∧ Effect mac P s.node n core made

variable {mac ops keys}

theorem Rests.moves {s : Link σ} {mark : Mark} {n : Engine σ} (rests : s.Rests mac mark n) : s.Moves mac mark n := by
  obtain ⟨P,core,rest,effect⟩ := rests
  exact ⟨P,core,[],.rest rest,effect⟩

theorem deliver_moves (s : Link σ) (frame : Bytes × Mark) (random : RandomFn) (nowMs : UInt32) (wired : Wired mac keys s)
    (member : frame ∈ s.sent) : s.Moves mac frame.2 (s.node.receive mac ops frame.1 random nowMs) := by
  obtain ⟨dst,ver,cmd,carries,encoded⟩ := wired.sent frame member
  have keyed : dst = s.node.ctx.id → keys dst = s.node.ctx.key := by
    rintro rfl
    exact wired.key.symm
  rcases receive_command mac ops s.node _ _ _ _ _ random nowMs encoded rfl (commandHeader_whole _ _ _ _) wired.context keyed with
    refused | ⟨here,P,core,made,outcome,effect⟩
  · exact ⟨_,_,_,.refused,refused⟩
  · exact ⟨P,core,made,.served cmd carries here outcome,effect⟩

theorem finish_rests (s : Link σ) (nowMs : UInt32) : s.Rests mac s.holding (s.node.finishCommand mac ops nowMs) := by
  cases active : s.node.ctx.pending.active with
  | false =>
      rw [Engine.finishCommand,if_pos (by simp [active])]
      exact ⟨_,_,.own,Effect.refl _⟩
  | true => exact ⟨_,_,.answered _ _ active rfl,finishCommand_effect mac ops s.node nowMs active⟩

theorem finishWith_rests (s : Link σ) (nowMs : UInt32) (result : AckResult) :
    s.Rests mac s.holding (s.node.finishCommandWith mac ops nowMs result) := by
  let decided : Engine σ := {s.node with ctx := {s.node.ctx with pending := {s.node.ctx.pending with result := result,detail := 0}}}
  cases active : s.node.ctx.pending.active with
  | false =>
      change s.Rests mac s.holding (decided.finishCommand mac ops nowMs)
      rw [Engine.finishCommand,if_pos (by simp [decided,active])]
      exact ⟨_,_,.idle decided.ctx.pending active active,Still.effect ⟨rfl,rfl,rfl⟩ rfl⟩
  | true => exact ⟨_,_,.answered result 0 active rfl,Effect.after decided (finishCommand_effect mac ops decided nowMs active) ⟨rfl,rfl,rfl⟩⟩

theorem tune_rests (s : Link σ) (mark : Mark) (tunings : List Tuning) : s.Rests mac mark (s.node.tune tunings) := by
  suffices tuned : ∀ c : Context, ∃ depths : List UInt8, (tunings.foldl Tuning.apply c).key = c.key ∧
      (tunings.foldl Tuning.apply c).core = {c.core with gate := depths.foldl CommandGate.setCacheDepth c.gate} by
    obtain ⟨depths,key,core⟩ := tuned s.node.ctx
    exact ⟨_,_,.tuned depths,Still.effect ⟨key,rfl,rfl⟩ core⟩
  induction tunings with
  | nil => exact fun c => ⟨[],rfl,rfl⟩
  | cons tuning rest ih =>
      intro c
      obtain ⟨depths,key,core⟩ := ih (tuning.apply c)
      cases tuning with
      | cacheDepth depth => exact ⟨depth :: depths,key,core⟩
      | fragTimeoutMs ms => exact ⟨depths,key,core⟩

theorem own_rests (s : Link σ) (mark : Mark) (input : OwnInput σ) : s.Rests mac mark (ownStep mac ops s.node input) := by
  refine ⟨_,_,.own,?_⟩
  cases input with
  | tick nowMs => exact tick_effect mac ops s.node nowMs
  | announceBoot cause nowMs => exact announceBoot_effect mac ops s.node cause nowMs
  | notePhyRevert cause => exact Still.effect ⟨rfl,rfl,rfl⟩ rfl
  | board phy => exact Still.effect ⟨rfl,rfl,rfl⟩ rfl
  | app app => exact Still.effect ⟨rfl,rfl,rfl⟩ rfl

theorem Rest.kept {s : Link σ} {mark : Mark} {P : Header → Bytes → Prop} {core : Core} (rest : Rest s mark P core) :
    core.id = s.node.ctx.id ∧ core.ctxId = s.node.ctx.ctxId ∧ core.gate.highWater = s.node.ctx.gate.highWater := by
  cases rest with
  | answered => exact ⟨rfl,rfl,record_highWater _ _ _ _⟩
  | own => exact ⟨rfl,rfl,rfl⟩
  | idle => exact ⟨rfl,rfl,rfl⟩
  | tuned depths =>
      refine ⟨rfl,rfl,?_⟩
      change (depths.foldl CommandGate.setCacheDepth s.node.ctx.gate).highWater = _
      generalize s.node.ctx.gate = gate
      induction depths generalizing gate with
      | nil => rfl
      | cons depth rest ih => rw [List.foldl_cons,ih,setCacheDepth_highWater]

theorem Cause.id {s : Link σ} {mark : Mark} {P : Header → Bytes → Prop} {core : Core} {made : List CallKind}
    (cause : Cause s mark P core made) : core.id = s.node.ctx.id := by
  cases cause with
  | rest rest => exact rest.kept.1
  | refused => rfl
  | served cmd _ _ outcome => cases outcome <;> rfl

theorem Cause.context {s : Link σ} {mark : Mark} {P : Header → Bytes → Prop} {core : Core} {made : List CallKind}
    (cause : Cause s mark P core made) (nonzero : s.node.ctx.ctxId ≠ 0) : core.ctxId ≠ 0 := by
  cases cause with
  | rest rest =>
      rw [rest.kept.2.1]
      exact nonzero
  | refused => exact nonzero
  | served cmd _ _ outcome =>
      cases outcome with
      | rolled _ next _ _ _ _ drawn => exact drawn
      | _ => exact nonzero

theorem executes_made {P : Header → Bytes → Prop} {n n' : Engine σ} {core : Core} {made : List CallKind} (effect : Effect mac P n n' core made) :
    executes n' - executes n = made.countP isExecute := by
  simp [executes,effect.calls]

-- Where a node stands in its sequence space after it moved: still, in another context, or further along for a frame of this one.
theorem Cause.travel {s : Link σ} {mark : Mark} {P : Header → Bytes → Prop} {core : Core} {made : List CallKind}
    (cause : Cause s mark P core made) :
    (made.countP isExecute = 0 ∧ core.ctxId = s.node.ctx.ctxId ∧ core.gate.highWater = s.node.ctx.gate.highWater) ∨
    (made.countP isExecute = 0 ∧ core.ctxId ≠ s.node.ctx.ctxId ∧ core.gate.highWater = 0) ∨
    (made.countP isExecute ≤ 1 ∧ core.ctxId = s.node.ctx.ctxId ∧ mark.ctx = s.node.ctx.ctxId ∧
      newer mark.seq s.node.ctx.gate.highWater = true ∧ core.gate.highWater = mark.seq) := by
  have passed : (s.node.ctx.core.gate.check mark.seq).1.verdict = .execute →
      newer mark.seq s.node.ctx.gate.highWater = true ∧ (s.node.ctx.core.gate.check mark.seq).2.highWater = mark.seq := by
    intro executes
    rcases check_cases s.node.ctx.core.gate mark.seq with ⟨_,ahead,_,accepted⟩ | ⟨other,_⟩ | ⟨other,_⟩ | ⟨_,other,_⟩
    · exact ⟨ahead,by rw [accepted,accept_highWater]⟩
    all_goals exact absurd (executes.symm.trans other) (by decide)
  cases cause with
  | rest rest => exact .inl ⟨rfl,rest.kept.2⟩
  | refused => exact .inl ⟨rfl,rfl,rfl⟩
  | served cmd _ here outcome =>
      cases outcome with
      | quiet => exact .inl ⟨rfl,rfl,rfl⟩
      | refused => exact .inl ⟨rfl,rfl,rfl⟩
      | cached => exact .inl ⟨rfl,rfl,rfl⟩
      | rolled _ next _ _ _ another => exact .inr (.inl ⟨rfl,another,rfl⟩)
      | busy executes => exact .inr (.inr ⟨by decide,rfl,here,(passed executes).1,(record_highWater _ _ _ _).trans (passed executes).2⟩)
      | deferred _ _ _ _ executes => exact .inr (.inr ⟨Nat.le_refl 1,rfl,here,passed executes⟩)
      | executed _ _ _ _ executes =>
          exact .inr (.inr ⟨Nat.le_refl 1,rfl,here,(passed executes).1,(record_highWater _ _ _ _).trans (passed executes).2⟩)

-- An attempt is due: the first one as it stands, or the one after a window that closed.
def Link.Due (s : Link σ) (attempt : UInt8) : Prop :=
  s.path.phase = .sendDue ∧ attempt = s.path.attempt ∨
    s.path.phase = .awaiting ∧ s.path.attempt < s.path.retries ∧ attempt = s.path.attempt + 1

variable (mac keys)

-- Everything one turn can do.
theorem turn_cases (s : Link σ) (nowMs : UInt32) (queued : Bool) (ver : UInt8) :
    s.turn mac keys nowMs queued ver = s ∨
    (∃ attempt, s.Due attempt ∧ s.turn mac keys nowMs queued ver = {s with path := {s.path with attempt := attempt,phase := .sendDue}}) ∨
    (∃ attempt bytes, s.Due attempt ∧ frameFor mac keys s.path.req.dst s.path.ctx s.path.seq ver s.path.req.command = some bytes ∧
      s.turn mac keys nowMs queued ver = {s with
        path := {s.path with attempt := attempt,phase := .awaiting,windowOpenedMs := nowMs,ctxAdopted := false}
        sent := s.sent ++ [(bytes,⟨some s.current,s.path.ctx,s.path.seq⟩)]}) ∨
    (s.path.phase = .awaiting ∧ s.turn mac keys nowMs queued ver = {s with
      path := {s.path with outcome := .noAck,phase := .idle}
      resolved := ⟨s.current,.noAck,s.path.result,s.path.detail,s.answer⟩ :: s.resolved}) ∨
    (s.path.phase = .resolved ∧ s.turn mac keys nowMs queued ver = {s with
      path := {s.path with phase := .idle}
      resolved := ⟨s.current,s.path.outcome,s.path.result,s.path.detail,s.answer⟩ :: s.resolved}) := by
  unfold Link.turn
  rcases s.path.next_cases nowMs with nothing | ⟨attempt,due,sends⟩ | ⟨awaiting,exhausted⟩ | ⟨resolved,finished⟩
  · rw [nothing]
    exact .inl rfl
  · rw [sends]
    dsimp only [CommandPath.sendStep]
    split
    · exact .inr (.inl ⟨attempt,due,rfl⟩)
    · rename_i bytes built
      split
      · exact .inr (.inr (.inl ⟨attempt,bytes,due,built,rfl⟩))
      · exact .inr (.inl ⟨attempt,due,rfl⟩)
  · rw [exhausted]
    exact .inr (.inr (.inr (.inl ⟨awaiting,rfl⟩)))
  · rw [finished]
    exact .inr (.inr (.inr (.inr ⟨resolved,rfl⟩)))

theorem due_inFlight {s : Link σ} {attempt : UInt8} (due : s.Due attempt) : s.InFlight := by
  obtain ⟨sendDue,_⟩ | ⟨awaiting,_⟩ := due
  · exact .inl sendDue
  · exact .inr awaiting

theorem frameFor_encoded (dst : NodeId) (ctx : CtxId) (seq : Seq) (ver : UInt8) (cmd : Command) (bytes : Bytes)
    (built : frameFor mac keys dst ctx seq ver cmd = some bytes) :
    encode (commandHeader dst ctx seq ver) cmd.serialize {mac := some mac,nodeKey := some (keys dst)} maxFrame = .ok bytes := by
  unfold frameFor buildCommandFrame at built
  cases made : encode (commandHeader dst ctx seq ver) cmd.serialize {mac := some mac,nodeKey := some (keys dst)} maxFrame with
  | error _ => simp [made,Except.toOption] at built
  | ok other =>
      simp only [made,Except.toOption,Option.some.injEq] at built
      rw [built]

variable {mac keys listen}

-- The frames a node adds to its outbox join the queue under one mark.
theorem after_queue {P : Header → Bytes → Prop} {s : Link σ} {n : Engine σ} {core : Core} {made : List CallKind} (mark : Mark)
    (effect : Effect mac P s.node n core made) : ∃ frames, (s.after mark n).queue = s.queue ++ frames.map (fun bytes => (bytes,mark)) ∧
      n.outbox = s.node.outbox ++ frames ∧ ∀ bytes ∈ frames, ∃ hdr payload, P hdr payload ∧
        encode hdr payload {mac := some mac,nodeKey := some s.node.ctx.key} maxFrame = .ok bytes := by
  obtain ⟨frames,outbox,each⟩ := effect.outbox
  refine ⟨frames,?_,outbox,each⟩
  simp only [Link.after,outbox,List.drop_left']

theorem moves_wired (s : Link σ) (mark : Mark) (n : Engine σ) (wired : Wired mac keys s) (moves : s.Moves mac mark n) :
    Wired mac keys (s.after mark n) := by
  obtain ⟨P,core,made,cause,effect⟩ := moves
  have sameId : n.ctx.id = s.node.ctx.id := (congrArg Core.id effect.core).trans cause.id
  have sameCtx : n.ctx.ctxId = core.ctxId := congrArg Core.ctxId effect.core
  obtain ⟨frames,queue,outbox,_⟩ := after_queue mark effect
  refine ⟨?_,?_,?_,wired.flight,wired.sent⟩
  · change n.ctx.key = keys n.ctx.id
    rw [effect.key,sameId]
    exact wired.key
  · change n.ctx.ctxId ≠ 0
    rw [sameCtx]
    exact cause.context wired.context
  · rw [queue]
    change _ = n.outbox
    simp [outbox,wired.queued,Function.comp_def]

theorem carries_grow {s s' : Link σ} {more : List Given} {mark : Mark} {cmd : Command} (grown : s'.given = s.given ++ more)
    (carries : s.Carries mark cmd) : s'.Carries mark cmd := by
  obtain ⟨submission,ctx,seq⟩ := mark
  cases submission with
  | none => exact carries
  | some k =>
      obtain ⟨g,here,same⟩ := carries
      refine ⟨g,?_,same⟩
      rw [grown,List.getElem?_append_left (List.getElem?_eq_some_iff.mp here).1]
      exact here

theorem submit_wired (s : Link σ) (req : CommandRequest) (ctx : CtxId) (seq : Seq) (nowMs : UInt32) (wired : Wired mac keys s) :
    Wired mac keys (step mac ops keys listen s (.submit req ctx seq nowMs)) := by
  by_cases idle : s.path.phase = .idle
  · simp only [step,CommandPath.submit,idle,ne_eq,not_true_eq_false,if_false]
    refine ⟨wired.key,wired.context,wired.queued,?_,?_⟩
    · intro _
      exact ⟨⟨req,ctx,seq⟩,by simp [Link.current],rfl⟩
    · intro frame member
      obtain ⟨dst,ver,cmd,carries,encoded⟩ := wired.sent frame member
      exact ⟨dst,ver,cmd,carries_grow rfl carries,encoded⟩
  · simp only [step,CommandPath.submit,ne_eq,idle,not_false_eq_true,if_true]
    exact wired

theorem turn_wired (s : Link σ) (nowMs : UInt32) (queued : Bool) (ver : UInt8) (wired : Wired mac keys s) :
    Wired mac keys (s.turn mac keys nowMs queued ver) := by
  rcases turn_cases mac keys s nowMs queued ver with same | ⟨attempt,due,moved⟩ | ⟨attempt,bytes,due,built,moved⟩ |
    ⟨_,moved⟩ | ⟨_,moved⟩
  · rw [same]
    exact wired
  · rw [moved]
    exact ⟨wired.key,wired.context,wired.queued,fun _ => wired.flight (due_inFlight due),wired.sent⟩
  · rw [moved]
    refine ⟨wired.key,wired.context,wired.queued,fun _ => wired.flight (due_inFlight due),?_⟩
    intro frame member
    rcases List.mem_append.mp member with old | new
    · exact wired.sent frame old
    · obtain rfl := List.mem_singleton.mp new
      obtain ⟨g,here,same⟩ := wired.flight (due_inFlight due)
      exact ⟨_,ver,_,⟨g,here,congrArg _ same⟩,frameFor_encoded mac keys _ _ _ _ _ _ built⟩
  · rw [moved]
    exact ⟨wired.key,wired.context,wired.queued,by rintro (sendDue | awaiting) <;> contradiction,wired.sent⟩
  · rw [moved]
    exact ⟨wired.key,wired.context,wired.queued,by rintro (sendDue | awaiting) <;> contradiction,wired.sent⟩

theorem onAck_flight (s : Link σ) (src : NodeId) (ack : CommandAck) (ctx : CtxId) (nowMs : UInt32) :
    s.path.onAck src ack ctx nowMs = s.path ∨ s.path.phase = .awaiting ∧ (s.path.onAck src ack ctx nowMs).req = s.path.req := by
  rcases s.path.onAck_cases src ack ctx nowMs with ⟨_,same⟩ | ⟨mine,_,_,_,moved⟩ | ⟨mine,_,_,_,moved⟩ | ⟨mine,_,_,moved⟩ | ⟨mine,_,moved⟩
  · exact .inl same
  all_goals exact .inr ⟨mine.1,by rw [moved]⟩

theorem hear_wired (s : Link σ) (frame : Bytes × Mark) (nowMs : UInt32) (wired : Wired mac keys s) :
    Wired mac keys (s.hear listen frame nowMs) := by
  unfold Link.hear
  split
  · exact wired
  · rename_i src ack ctx _
    refine ⟨wired.key,wired.context,wired.queued,?_,wired.sent⟩
    rcases onAck_flight s src ack ctx nowMs with same | ⟨awaiting,same⟩
    · simp only [Link.InFlight,same]
      exact wired.flight
    · intro _
      rw [same]
      exact wired.flight (.inr awaiting)

theorem step_wired (s : Link σ) (i : Input σ) (wired : Wired mac keys s) : Wired mac keys (step mac ops keys listen s i) := by
  cases i with
  | submit req ctx seq nowMs => exact submit_wired s req ctx seq nowMs wired
  | tick nowMs queued ver => exact turn_wired s nowMs queued ver wired
  | aired airedMs =>
      simp only [step,CommandPath.onAired]
      split
      · exact ⟨wired.key,wired.context,wired.queued,wired.flight,wired.sent⟩
      · exact wired
  | setParams ackTimeoutMs retries => exact ⟨wired.key,wired.context,wired.queued,wired.flight,wired.sent⟩
  | sendRoll dst ctx seq ver =>
      simp only [step]
      split
      · exact wired
      · rename_i bytes built
        refine ⟨wired.key,wired.context,wired.queued,wired.flight,?_⟩
        intro frame member
        rcases List.mem_append.mp member with old | new
        · exact wired.sent frame old
        · obtain rfl := List.mem_singleton.mp new
          exact ⟨dst,ver,rollCommand,rfl,frameFor_encoded mac keys _ _ _ _ _ _ built⟩
  | deliver i random nowMs =>
      simp only [step]
      split
      · exact wired
      · rename_i bytes mark here
        exact moves_wired s _ _ wired (deliver_moves s (bytes,mark) random nowMs wired (List.mem_of_getElem? here))
  | finish nowMs => exact moves_wired s _ _ wired (Rests.moves <| finish_rests s nowMs)
  | finishWith nowMs result => exact moves_wired s _ _ wired (Rests.moves <| finishWith_rests s nowMs result)
  | tune tunings => exact moves_wired s _ _ wired (Rests.moves <| tune_rests s _ tunings)
  | own input => exact moves_wired s _ _ wired (Rests.moves <| own_rests s _ input)
  | reboot random phy app => exact ⟨wired.key,newCtxId_ne_zero random 0,rfl,wired.flight,wired.sent⟩
  | transmit =>
      refine ⟨wired.key,wired.context,?_,wired.flight,wired.sent⟩
      change (s.queue.drop 1).map Prod.fst = s.node.outbox.drop 1
      rw [List.map_drop,wired.queued]
  | hear i nowMs =>
      simp only [step]
      split
      · exact wired
      · exact hear_wired s _ nowMs wired

theorem start_wired (id : NodeId) (ver : UInt8) (random : RandomFn) (phy : PhyTrial) (app : σ) :
    Wired mac keys (start keys id ver random phy app) :=
  ⟨rfl,newCtxId_ne_zero random 0,rfl,by rintro (sendDue | awaiting) <;> contradiction,by simp [start]⟩

end

-- The smallest application that answers commands: it accepts each of them at once.
def obedient : Application Unit where
  capabilities _ _ := capAnswersCommands ||| capRefusesAuthenticated
  onPoll app _ _ _ _ := (none,app)
  onPing app _ _ _ _ _ := (none,app)
  execute app _ _ _ := ({},app)
  buildStatus app _ _ _ := (([],0),app)
  buildEvent app _ _ _ _ := (([],0),app)
  configSet app _ _ := (none,[],app)
  configGet app _ _ := (none,app)
  configList app _ := ([],app)
  configRestoreDefaults app _ := ([],app)
  configUnpersisted _ _ := false
  phySlot _ _ := 0
  phyMembers _ := 0
  hexForward app _ _ _ := (none,app)
  hexTimeoutMs _ _ := 0
  withhold app _ _ _ := (false,app)
  forceRejectCtx app _ _ := (false,app)
  freshAck app _ _ := (.send,app)

-- A gate node in context 10, under a key of zeros.
def gate : Link Unit := start (fun _ => zeroKey) nodeGateLink protoVer (fun _ => 10) {} ()

def openGate : CommandRequest := {dst := nodeGateLink,cmd := cmdOpen}

end LoraRan.System.CommandLink
