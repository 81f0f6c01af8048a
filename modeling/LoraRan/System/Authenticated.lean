import LoraRan.Library.StepSystem
import LoraRan.Node.Provenance

namespace LoraRan.System.Authenticated
open Protocol Node Library.StepSystem

-- A node on a hostile channel, and every frame it was given.
structure Station (σ : Type) where
  engine : Engine σ
  arrivals : List Arrival := []

-- What the radio and the board ask of an engine, the trial radio settings left free.
inductive EngineInput where
  | receive (buf : Bytes) (random : RandomFn) (nowMs : UInt32)
  | tick (nowMs : UInt32)
  | finishCommand (nowMs : UInt32)
  | finishCommandWith (nowMs : UInt32) (result : AckResult)
  | completeHex (status : HexStatus) (hex : Bytes)
  | reset (random : RandomFn)
  | roll (random : RandomFn)
  | announceBoot (cause : UInt8) (nowMs : UInt32)
  | notePhyRevert (cause : RevertCause)
  | tune (tunings : List Tuning)
  | board (phy : PhyTrial)
  | transmit

-- Anything that happens to a node. What the application does between frames is left free.
inductive Input (σ : Type) where
  | engine (input : EngineInput)
  | reboot (random : RandomFn) (phy : PhyTrial) (app : σ)
  | app (app : σ)

def EngineInput.arrivals (c : Context) : EngineInput → List Arrival
  | .receive buf _ _ => [⟨buf,c⟩]
  | _ => []

section
variable {σ : Type} (mac : Mac) (ops : Application σ)

def engineStep (n : Engine σ) : EngineInput → Engine σ
  | .receive buf random nowMs => n.receive mac ops buf random nowMs
  | .tick nowMs => n.tick mac nowMs
  | .finishCommand nowMs => n.finishCommand mac ops nowMs
  | .finishCommandWith nowMs result => n.finishCommandWith mac ops nowMs result
  | .completeHex status hex => (n.completeHex mac status hex).2
  | .reset random => {n with ctx := resetContext n.ctx random}
  | .roll random => {n with ctx := rollContext n.ctx random}
  | .announceBoot cause nowMs => (n.announceBoot mac ops cause nowMs).2
  | .notePhyRevert cause => n.notePhyRevert cause
  | .tune tunings => n.tune tunings
  | .board phy => {n with phy := phy}
  | .transmit => {n with outbox := n.outbox.drop 1}

-- A reboot keeps the identity and its key and loses the rest; the trace of calls is the observer's.
def rebooted (n : Engine σ) (random : RandomFn) (phy : PhyTrial) (app : σ) : Engine σ :=
  {ctx := resetContext {id := n.ctx.id,protoVer := n.ctx.protoVer,key := n.ctx.key} random,phy := phy,app := app,calls := n.calls}

def step (s : Station σ) : Input σ → Station σ
  | .engine input => ⟨engineStep mac ops s.engine input,input.arrivals s.engine.ctx ++ s.arrivals⟩
  | .reboot random phy app => {s with engine := rebooted s.engine random phy app}
  | .app app => {s with engine := {s.engine with app := app}}

def start (c : Context) (random : RandomFn) (phy : PhyTrial) (app : σ) : Station σ :=
  {engine := {ctx := resetContext c random,phy := phy,app := app}}

-- The calls a MAC guards. A read of the charger is not one of them.
def Guarded (d : Delivery) : CallKind → Prop
  | .hexForward _ => hexReqIsWriteClass d.payload = true
  | _ => True

structure Invariant (held : NodeKey) (s : Station σ) : Prop where
  key : s.engine.ctx.key = held
  context : s.engine.ctx.ctxId ≠ 0
  idle : s.engine.serving = none
  stored : Stored mac s.arrivals s.engine.ctx.reassembler
  arrived : ∀ a ∈ s.arrivals, a.ctx.key = held ∧ a.ctx.ctxId ≠ 0
  calls : ∀ c ∈ s.engine.calls, ∃ d, c.serving = some d ∧ Assembled mac s.arrivals d ∧ MadeFor d c.kind

variable {mac ops} {held : NodeKey}

theorem Assembled.mono {arrivals more : List Arrival} {d : Delivery} (assembled : Assembled mac arrivals d) (within : arrivals ⊆ more) :
    Assembled mac more d := by
  obtain ⟨parts,made⟩ := assembled
  refine ⟨parts,made.payload,made.count,made.some_part,fun i part here => ?_⟩
  obtain ⟨member,rest⟩ := made.each i part here
  exact ⟨within member,rest⟩

theorem start_invariant (c : Context) (random : RandomFn) (phy : PhyTrial) (app : σ) : Invariant mac c.key (start c random phy app) :=
  ⟨rfl,newCtxId_ne_zero random 0,rfl,Stored.idle rfl,by simp [start],by simp [start]⟩

theorem receive_preserves (s : Station σ) (buf : Bytes) (random : RandomFn) (nowMs : UInt32) (valid : Invariant mac held s) :
    Invariant mac held (step mac ops s (.engine (.receive buf random nowMs))) := by
  have within : s.arrivals ⊆ ⟨buf,s.engine.ctx⟩ :: s.arrivals := List.subset_cons_self _ _
  have received : Received mac ops (⟨buf,s.engine.ctx⟩ :: s.arrivals) ⟨buf,s.engine.ctx⟩ s.engine (s.engine.receive mac ops buf random nowMs) :=
    receive_received s.engine buf random nowMs valid.idle valid.context (valid.stored.mono within) (by simp)
  obtain ⟨made,calls,fit⟩ := received.calls
  refine ⟨received.key.trans valid.key,received.context valid.context,received.idle,received.stored,?_,?_⟩
  · intro a member
    rcases List.mem_cons.mp member with rfl | old
    · exact ⟨valid.key,valid.context⟩
    · exact valid.arrived a old
  · intro c member
    change c ∈ (s.engine.receive mac ops buf random nowMs).calls at member
    rw [calls] at member
    rcases List.mem_append.mp member with new | old
    · obtain ⟨d,serving,delivered,permitted⟩ := fit c new
      exact ⟨d,serving,delivered.assembled,permitted.1⟩
    · obtain ⟨d,serving,assembled,made⟩ := valid.calls c old
      exact ⟨d,serving,Assembled.mono assembled within,made⟩

-- Steps of the node itself make no call for a frame.
theorem acts_preserves (ops : Application σ) (s : Station σ) (n : Engine σ) (valid : Invariant mac held s) (acts : Acts ops (fun _ => False) s.engine n) :
    Invariant mac held {s with engine := n} := by
  obtain ⟨ms,reassembler⟩ := acts.reassembler
  obtain ⟨made,calls,none⟩ := acts.calls
  refine ⟨acts.key.trans valid.key,acts.context valid.context,acts.serving.trans valid.idle,?_,valid.arrived,?_⟩
  · rw [reassembler]
    exact valid.stored
  · intro c member
    rw [calls] at member
    rcases List.mem_append.mp member with new | old
    · exact (none c new).2.elim
    · exact valid.calls c old

theorem tick_preserves (s : Station σ) (nowMs : UInt32) (valid : Invariant mac held s) :
    Invariant mac held (step mac ops s (.engine (.tick nowMs))) := by
  let ticked := s.engine.ctx.reassembler.tick s.engine.ctx.counters nowMs
  let before : Engine σ := {s.engine with ctx := {s.engine.ctx with reassembler := ticked.1,counters := ticked.2}}
  have kept : Invariant mac held {s with engine := before} :=
    ⟨valid.key,valid.context,valid.idle,tick_stored valid.stored _ nowMs,valid.arrived,valid.calls⟩
  exact acts_preserves ops {s with engine := before} (before.tickHex mac nowMs) kept (tickHex_acts mac ops before nowMs)

theorem engine_preserves (s : Station σ) (input : EngineInput) (valid : Invariant mac held s) :
    Invariant mac held (step mac ops s (.engine input)) := by
  cases input with
  | receive buf random nowMs => exact receive_preserves s buf random nowMs valid
  | tick nowMs => exact tick_preserves s nowMs valid
  | finishCommand nowMs => exact acts_preserves ops s _ valid (finishCommand_acts mac ops s.engine nowMs)
  | finishCommandWith nowMs result => exact acts_preserves ops s _ valid (Acts.after _ (finishCommand_acts mac ops _ nowMs) ⟨rfl,rfl,rfl,rfl,rfl,rfl,rfl⟩)
  | completeHex status hex => exact acts_preserves ops s _ valid (completeHex_acts mac ops s.engine status hex)
  | reset random => exact ⟨valid.key,newCtxId_ne_zero random 0,valid.idle,Stored.idle rfl,valid.arrived,valid.calls⟩
  | roll random => exact acts_preserves ops s _ valid (rolled_acts ops s.engine random)
  | announceBoot cause nowMs => exact acts_preserves ops s _ valid (announceBoot_acts mac ops s.engine cause nowMs)
  | notePhyRevert cause => exact acts_preserves ops s _ valid (Acts.quiet ⟨rfl,rfl,rfl,rfl,rfl,rfl,rfl⟩)
  | tune tunings => exact acts_preserves ops s _ valid (tune_acts s.engine tunings)
  | board phy => exact acts_preserves ops s _ valid (Acts.quiet ⟨rfl,rfl,rfl,rfl,rfl,rfl,rfl⟩)
  | transmit => exact acts_preserves ops s _ valid (Acts.quiet ⟨rfl,rfl,rfl,rfl,rfl,rfl,rfl⟩)

theorem app_preserves (s : Station σ) (app : σ) (valid : Invariant mac held s) :
    Invariant mac held {s with engine := {s.engine with app := app}} :=
  ⟨valid.key,valid.context,valid.idle,valid.stored,valid.arrived,valid.calls⟩

theorem reboot_preserves (s : Station σ) (random : RandomFn) (phy : PhyTrial) (app : σ) (valid : Invariant mac held s) :
    Invariant mac held {s with engine := rebooted s.engine random phy app} :=
  ⟨valid.key,newCtxId_ne_zero random 0,rfl,Stored.idle rfl,valid.arrived,valid.calls⟩

theorem step_preserves (s : Station σ) (i : Input σ) (valid : Invariant mac held s) : Invariant mac held (step mac ops s i) := by
  cases i with
  | engine input => exact engine_preserves s input valid
  | reboot random phy app => exact reboot_preserves s random phy app valid
  | app app => exact app_preserves s app valid

variable (mac ops)

theorem run_invariant (c : Context) (random : RandomFn) (phy : PhyTrial) (app : σ) (run : List (Input σ)) :
    Invariant mac c.key (run.foldl (step mac ops) (start c random phy app)) :=
  List.foldlRecOn run _ (start_invariant c random phy app) fun s valid i _ => step_preserves s i valid

-- Whatever the frames hold, a guarded call is made for a payload whose every frame carried the tag of this context's key
-- and the context the node was in when it arrived, and that context is never the wildcard.
theorem guarded_calls_authentic (c : Context) (random : RandomFn) (phy : PhyTrial) (app : σ) (run : List (Input σ)) :
    let s := run.foldl (step mac ops) (start c random phy app)
    s.engine.ctx.ctxId ≠ 0 ∧ (∀ a ∈ s.arrivals, a.ctx.key = c.key ∧ a.ctx.ctxId ≠ 0) ∧
      ∀ call ∈ s.engine.calls, ∃ d, call.serving = some d ∧ MadeFor d call.kind ∧
        (Guarded d call.kind → Authentic mac s.arrivals d) := by
  intro s
  have valid := run_invariant mac ops c random phy app run
  refine ⟨valid.context,valid.arrived,?_⟩
  intro call member
  obtain ⟨d,serving,assembled,made⟩ := valid.calls call member
  refine ⟨d,serving,made,fun guarded => authentic_of_assembled mac s.arrivals d assembled ?_⟩
  -- The type of the payload behind each kind of call says whether a MAC was due.
  obtain ⟨kind,_⟩ := call
  cases kind with
  | hexForward hex => simpa [frameHasMac,typeRequiresMac,made.1,Guarded] using guarded
  | _ => simp [frameHasMac,typeRequiresMac,made.1]

end
end LoraRan.System.Authenticated
