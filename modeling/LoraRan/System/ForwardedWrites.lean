import LoraRan.System.AckContext

namespace LoraRan.System.ForwardedWrites
open Protocol Node Library.StepSystem
open Library.LittleEndian (u8At)
open System.Authenticated (EngineInput Input engineStep rebooted)
open System.AckContext (Request ackIn sent newCalls sent_of_outbox newCalls_of_calls newCalls_kinds ackIn_encoded)

-- A node, and the requests its application was asked to forward since its context began.
structure Station (σ : Type) where
  engine : Engine σ
  forwarded : List Request := []

section
variable {σ : Type}

def forwards (n n' : Engine σ) : List Request :=
  (newCalls n n').filterMap fun c =>
    match c.kind,c.serving with
    | .hexForward _,some d => some ⟨n.ctx.ctxId,d.hdr.seq⟩
    | _,_ => none

-- A new context begins with nothing forwarded in it.
def renews : Input σ → Bool
  | .engine (.reset _) | .engine (.roll _) | .reboot _ _ _ => true
  | _ => false

variable (mac : Mac) (ops : Application σ)

def apply (n : Engine σ) : Input σ → Engine σ
  | .engine input => engineStep mac ops n input
  | .reboot random phy app => rebooted n random phy app
  | .app app => {n with app := app}

def step (s : Station σ) (i : Input σ) : Station σ :=
  let n := apply mac ops s.engine i
  ⟨n,if renews i then [] else forwards s.engine n ++ s.forwarded⟩

def start (id : NodeId) (ver : UInt8) (key : NodeKey) (random : RandomFn) (phy : PhyTrial) (app : σ) : Station σ :=
  {engine := {ctx := resetContext {id := id,protoVer := ver,key := key} random,phy := phy,app := app}}

-- A node that is sent HEX_REQs, polls and pings, and no COMMAND and no CONFIG.
def hexTraffic : Input σ → Bool
  | .engine (.receive buf _ _) => (readHeader buf).type != .command && (readHeader buf).type != .config
  | _ => true

-- The seq of a write-class HEX_REQ that the codec passes.
def writeHeard (c : Context) (buf : Bytes) : Option Seq :=
  match decodeHeader buf c.headerCtx with
  | (.ok,head) =>
      match decodePayload buf (c.payloadCtx mac) head with
      | (.ok,f) => if f.hdr.type = .hexReq ∧ hexReqIsWriteClass f.payload then some f.hdr.seq else none
      | _ => none
  | _ => none

-- A write the gate would execute while another transaction is outstanding.
def collides (c : Context) : Input σ → Bool
  | .engine (.receive buf _ _) =>
      match writeHeard mac c buf with
      | some seq => c.hexPending.active && (c.gate.check seq).1.verdict == .execute
      | none => false
  | _ => false

def Unhindered (s : Station σ) (i : Input σ) : Prop := hexTraffic i = true ∧ collides mac s.engine.ctx i = false

instance unhinderedDecidable (s : Station σ) (i : Input σ) : Decidable (Unhindered mac s i) := inferInstanceAs (Decidable (_ ∧ _))

structure Sound (s : Station σ) : Prop where
  idle : s.engine.ctx.pending.active = false
  vouched : Vouched (fun seq => ⟨s.engine.ctx.ctxId,seq⟩ ∈ s.forwarded) s.engine.ctx.gate

variable {mac ops}

theorem kept_sound {s : Station σ} {n : Engine σ} {more : List Request} (sound : Sound s) (idle : n.ctx.pending.active = false)
    (context : n.ctx.ctxId = s.engine.ctx.ctxId) (gate : n.ctx.gate = s.engine.ctx.gate) : Sound ⟨n,more ++ s.forwarded⟩ := by
  refine ⟨idle,?_⟩
  dsimp only
  rw [gate,context]
  exact sound.vouched.mono fun _ member => List.mem_append_right _ member

theorem core_sound {s : Station σ} {n : Engine σ} {more : List Request} (sound : Sound s) (core : n.ctx.core = s.engine.ctx.core) :
    Sound ⟨n,more ++ s.forwarded⟩ :=
  kept_sound sound ((congrArg (fun c : Core => c.pending.active) core).trans sound.idle) (congrArg Core.ctxId core) (congrArg Core.gate core)

theorem tune_sound (s : Station σ) (tunings : List Tuning) (sound : Sound s) (more : List Request) :
    Sound ⟨s.engine.tune tunings,more ++ s.forwarded⟩ := by
  have grown := sound.vouched.mono (E := fun seq => ⟨s.engine.ctx.ctxId,seq⟩ ∈ more ++ s.forwarded) fun _ member => List.mem_append_right _ member
  suffices kept : ∀ c : Context, c.pending.active = false → Vouched (fun seq => ⟨c.ctxId,seq⟩ ∈ more ++ s.forwarded) c.gate →
      (tunings.foldl Tuning.apply c).pending.active = false ∧
        Vouched (fun seq => ⟨(tunings.foldl Tuning.apply c).ctxId,seq⟩ ∈ more ++ s.forwarded) (tunings.foldl Tuning.apply c).gate by
    obtain ⟨idle,vouched⟩ := kept s.engine.ctx sound.idle grown
    exact ⟨idle,vouched⟩
  induction tunings with
  | nil => exact fun c idle vouched => ⟨idle,vouched⟩
  | cons tuning rest ih =>
      intro c idle vouched
      cases tuning with
      | cacheDepth depth => exact ih {c with gate := c.gate.setCacheDepth depth} idle (setCacheDepth_vouched depth vouched)
      | fragTimeoutMs ms => exact ih {c with reassembler := c.reassembler.setTimeoutMs ms} idle vouched

-- Types that ask the gate nothing.
theorem deliver_plain (mac : Mac) (ops : Application σ) (n : Engine σ) (hdr : Header) (payload : Bytes) (fragments : UInt8) (random : RandomFn)
    (nowMs : UInt32) (noCommand : hdr.type ≠ .command) (noConfig : hdr.type ≠ .config) (noHexReq : hdr.type ≠ .hexReq) :
    Effect mac Mute n (n.deliver mac ops hdr payload fragments random nowMs) n.ctx.core [] := by
  have answered : ∀ (m : Engine σ) (answers : Option (List Answer)), Effect mac Mute m (m.answerAll mac ops nowMs answers) m.ctx.core [] := by
    intro m answers
    unfold Engine.answerAll
    split
    · exact Still.effect ⟨rfl,rfl,rfl⟩ rfl
    · exact (answers_sends mac ops m nowMs _).effect.weaken (mute_of_plain _)
  have dispatched : ∀ m : Engine σ, Effect mac Mute m (m.dispatch mac ops hdr payload fragments random nowMs) m.ctx.core [] := by
    intro m
    unfold Engine.dispatch
    dsimp only
    split
    · exact Effect.refl m
    · exact Effect.after _ (answered _ _) ⟨rfl,rfl,rfl⟩
    · exact Effect.after _ (answered _ _) ⟨rfl,rfl,rfl⟩
    · rename_i typed
      exact absurd typed noCommand
    · rename_i typed
      exact absurd typed noHexReq
    · rename_i typed
      exact absurd typed noConfig
    · exact Still.effect ⟨rfl,rfl,rfl⟩ rfl
  unfold Engine.deliver
  dsimp only
  split
  · obtain ⟨reported,_⟩ := reported_effect mac ops n ⟨hdr,payload⟩ nowMs
    have joined := reported.trans (dispatched _)
    rw [reported.core] at joined
    exact joined.before ⟨rfl,rfl,rfl⟩ rfl
  · let taken : Engine σ := {n with serving := some ⟨hdr,payload⟩}
    have served : Effect mac Mute n (taken.dispatch mac ops hdr payload fragments random nowMs) n.ctx.core [] :=
      Effect.after taken (dispatched taken) ⟨rfl,rfl,rfl⟩
    exact served.before ⟨rfl,rfl,rfl⟩ rfl

-- Frames that report no cached result.
def Unclaiming (hdr : Header) (payload : Bytes) : Prop :=
  hdr.type = .commandAck → ∃ seq, ∃ result : AckResult, ∃ detail, result ≠ .duplicateCached ∧ payload = CommandAck.serialize ⟨seq,result.code,detail⟩

theorem unclaiming_of_noAck (hdr : Header) (payload : Bytes) (noAck : NoAck hdr payload) : Unclaiming hdr payload := fun isAck => absurd isAck noAck

theorem unclaiming_of_refuses (c : Core) (asked hdr : Header) (payload : Bytes) (refuses : Refuses c asked hdr payload) : Unclaiming hdr payload := by
  intro isAck
  obtain ⟨result,refusal,said⟩ := refuses.2 isAck
  refine ⟨_,result,_,?_,said⟩
  rcases refusal with rfl | rfl
  · decide
  · decide

-- A frame of this traffic leaves the core alone and reports nothing cached, or is a HEX_REQ served.
theorem receive_hexTraffic (mac : Mac) (ops : Application σ) (n : Engine σ) (buf : Bytes) (random : RandomFn) (nowMs : UInt32)
    (noCommand : (readHeader buf).type ≠ .command) (noConfig : (readHeader buf).type ≠ .config) :
    Effect mac Unclaiming n (n.receive mac ops buf random nowMs) n.ctx.core [] ∨
    ∃ payload f, decodeHeader buf n.ctx.headerCtx = (.ok,{hdr := readHeader buf}) ∧
      decodePayload buf (n.ctx.payloadCtx mac) {hdr := readHeader buf} = (.ok,f) ∧ f.payload = payload ∧ (readHeader buf).type = .hexReq ∧
      HexServed mac n (n.receive mac ops buf random nowMs) (readHeader buf).seq payload ∧
      ∀ c ∈ newCalls n (n.receive mac ops buf random nowMs), c.serving = some ⟨readHeader buf,payload⟩ := by
  rcases receive_cases mac ops n buf random nowMs with counted | ⟨m,why,counted,_,refused⟩ | ⟨m,payload,fragments,counted,headed,decoded,delivered⟩
  · exact .inl (Still.effect counted.still counted.core)
  · rw [refused]
    obtain ⟨effect,_⟩ := refuseAuthenticated_refuses mac ops m (readHeader buf) why
    have joined := Effect.after m (effect.weaken (unclaiming_of_refuses _ _)) counted.still
    rw [counted.core] at joined
    exact .inl joined
  · by_cases isHexReq : (readHeader buf).type = .hexReq
    · obtain ⟨f,passed,same⟩ := decoded isHexReq
      obtain ⟨served,acts,ended⟩ := deliver_acts mac ops m (readHeader buf) payload fragments random nowMs
      obtain ⟨made,calls,each⟩ := acts.calls
      have joined : (n.receive mac ops buf random nowMs).calls = made ++ n.calls := by
        rw [delivered,ended,← counted.still.calls]
        exact calls
      refine .inr ⟨payload,f,headed,passed,same,isHexReq,?_,?_⟩
      · rw [delivered]
        exact HexServed.after m (deliver_hexServed mac ops m _ payload fragments random nowMs isHexReq) counted.still counted.core counted.transaction
      · rw [newCalls_of_calls joined]
        exact fun c member => (each c member).1
    · have effect := (deliver_plain mac ops m _ payload fragments random nowMs noCommand noConfig isHexReq).weaken
        fun hdr body mute => unclaiming_of_noAck hdr body mute.1
      have joined := Effect.after m effect counted.still
      rw [counted.core] at joined
      rw [delivered]
      exact .inl joined

theorem forwards_one {n n' : Engine σ} {d : Delivery} {hex : Bytes} (kinds : (newCalls n n').map Call.kind = [.hexForward hex])
    (served : ∀ c ∈ newCalls n n', c.serving = some d) : forwards n n' = [⟨n.ctx.ctxId,d.hdr.seq⟩] := by
  obtain ⟨⟨kind,serving⟩,only,rfl⟩ := List.map_eq_singleton_iff.mp kinds
  obtain rfl := served _ (by rw [only]; exact List.mem_singleton_self _)
  rw [forwards,only]
  rfl

-- A write-class request has the shape the node asks for.
theorem shaped_of_write (payload : Bytes) (req : HexReq) (parsed : HexReq.deserialize payload = some req)
    (writes : hexReqIsWriteClass payload = true) : hexShaped req.hex = true := by
  have shifted : ∀ i, u8At (payload.drop 2) i = u8At payload (2 + i) := fun i => by simp [u8At]
  unfold HexReq.deserialize at parsed
  unfold hexReqIsWriteClass at writes
  split at parsed
  · cases parsed
  · split at parsed
    · cases parsed
      split at writes
      · cases writes
      · rename_i long
        split at writes
        · cases writes
        · split at writes
          · cases writes
          · rename_i coloned
            split at writes
            · cases writes
            · rename_i nibble found
              simp only [hexShaped,shifted,Bool.and_eq_true,decide_eq_true_eq,List.length_drop,beq_iff_eq]
              refine ⟨⟨by omega,not_not.mp coloned⟩,?_⟩
              rw [found]
              rfl
    · cases parsed

-- The gate after a HEX_REQ that got through: a write is on record as accepted only once it was forwarded.
theorem passes_vouched {s : Station σ} {seq : Seq} {payload : Bytes} {gate : CommandGate} {more : List Request} (sound : Sound s)
    (passes : Passes s.engine.ctx.gate seq payload gate)
    (asked : hexReqIsWriteClass payload = true → (s.engine.ctx.gate.check seq).1.verdict = .execute → ⟨s.engine.ctx.ctxId,seq⟩ ∈ more ++ s.forwarded) :
    Vouched (fun seq => ⟨s.engine.ctx.ctxId,seq⟩ ∈ more ++ s.forwarded) gate := by
  have grown := sound.vouched.mono (E := fun seq => ⟨s.engine.ctx.ctxId,seq⟩ ∈ more ++ s.forwarded) fun _ member => List.mem_append_right _ member
  cases passes with
  | read _ => exact grown
  | write writes executes => exact record_vouched seq .accepted 0 (check_vouched seq grown) fun _ => asked writes executes

theorem receive_sound (s : Station σ) (buf : Bytes) (random : RandomFn) (nowMs : UInt32) (sound : Sound s)
    (unhindered : Unhindered mac s (.engine (.receive buf random nowMs))) : Sound (step mac ops s (.engine (.receive buf random nowMs))) := by
  obtain ⟨domain,clear⟩ := unhindered
  simp only [hexTraffic,Bool.and_eq_true,bne_iff_ne,ne_eq] at domain
  rcases receive_hexTraffic mac ops s.engine buf random nowMs domain.1 domain.2 with quiet | ⟨payload,f,headed,decoded,rfl,isHexReq,served,fit⟩
  · exact core_sound sound quiet.core
  · obtain ⟨P,core,h,made,outcome,effect,_⟩ := served
    have kinds := newCalls_kinds effect.calls
    have through : ∀ gate, core = {s.engine.ctx.core with gate := gate} → Passes s.engine.ctx.gate (readHeader buf).seq f.payload gate →
        (hexReqIsWriteClass f.payload = true → (s.engine.ctx.gate.check (readHeader buf).seq).1.verdict = .execute →
          ⟨s.engine.ctx.ctxId,(readHeader buf).seq⟩ ∈ forwards s.engine (s.engine.receive mac ops buf random nowMs) ++ s.forwarded) →
        Sound (step mac ops s (.engine (.receive buf random nowMs))) := by
      intro gate moved passes asked
      have core := effect.core.trans moved
      have vouched := passes_vouched sound passes asked
      refine ⟨?_,?_⟩
      · exact (congrArg (fun c : Core => c.pending.active) core).trans sound.idle
      · have context : (s.engine.receive mac ops buf random nowMs).ctx.ctxId = s.engine.ctx.ctxId := congrArg Core.ctxId core
        have gated : (s.engine.receive mac ops buf random nowMs).ctx.gate = gate := congrArg Core.gate core
        rw [← context,← gated] at vouched
        exact vouched
    cases outcome with
    | quiet => exact core_sound sound effect.core
    | cached => exact core_sound sound effect.core
    | rejected => exact core_sound sound effect.core
    | refused gate passes why =>
        refine through gate rfl passes fun writes executes => ?_
        obtain ⟨sameHdr,whole⟩ := hexReq_of_accepted _ _ _ _ decoded
        rw [sameHdr] at whole
        rcases why with outstanding | shapeless
        · -- The write was recorded as accepted and then refused for the transaction in hand.
          have heard : writeHeard mac s.engine.ctx buf = some (readHeader buf).seq := by simp [writeHeard,headed,decoded,sameHdr,isHexReq,writes]
          simp [collides,heard,outstanding,executes] at clear
        · obtain ⟨_,req,parsed⟩ := whole isHexReq
          exact absurd (shaped_of_write f.payload req parsed writes) (by simp [shapeless req parsed])
    | replied gate req passes =>
        refine through gate rfl passes fun _ _ => ?_
        rw [forwards_one kinds fit]
        exact List.mem_cons_self
    | waits gate req _ _ passes =>
        refine through gate rfl passes fun _ _ => ?_
        rw [forwards_one kinds fit]
        exact List.mem_cons_self

theorem finish_idle (n : Engine σ) (nowMs : UInt32) (idle : n.ctx.pending.active = false) : n.finishCommand mac ops nowMs = n := by
  unfold Engine.finishCommand
  rw [if_pos (by rw [idle]; rfl)]

theorem completeHex_core (ops : Application σ) (n : Engine σ) (status : HexStatus) (hex : Bytes) : (n.completeHex mac status hex).2.ctx.core = n.ctx.core := by
  unfold Engine.completeHex
  split
  · rfl
  · exact (sendHexRsp_effect mac ops _ _ _ _ _).core

theorem engine_sound (s : Station σ) (input : EngineInput) (sound : Sound s) (unhindered : Unhindered mac s (.engine input)) :
    Sound (step mac ops s (.engine input)) := by
  cases input with
  | receive buf random nowMs => exact receive_sound s buf random nowMs sound unhindered
  | tick nowMs => exact core_sound sound (tick_effect mac ops s.engine nowMs).core
  | finishCommand nowMs => exact core_sound sound (congrArg (fun n : Engine σ => n.ctx.core) (finish_idle s.engine nowMs sound.idle))
  | finishCommandWith nowMs result =>
      let marked : Engine σ := {s.engine with ctx := {s.engine.ctx with pending := {s.engine.ctx.pending with result := result,detail := 0}}}
      have same : s.engine.finishCommandWith mac ops nowMs result = marked := finish_idle marked nowMs sound.idle
      change Sound ⟨s.engine.finishCommandWith mac ops nowMs result,forwards s.engine _ ++ s.forwarded⟩
      rw [same]
      exact kept_sound sound sound.idle rfl rfl
  | completeHex status hex => exact core_sound sound (completeHex_core ops s.engine status hex)
  | reset random => exact ⟨rfl,resetContext_vouched _ sound.vouched⟩
  | roll random => exact ⟨sound.idle,resetContext_vouched _ sound.vouched⟩
  | announceBoot cause nowMs => exact core_sound sound (announceBoot_effect mac ops s.engine cause nowMs).core
  | notePhyRevert cause => exact core_sound sound rfl
  | tune tunings => exact tune_sound s tunings sound _
  | board phy => exact core_sound sound rfl
  | transmit => exact core_sound sound rfl

theorem fresh_vouched {D : Seq → Prop} (ctx : CtxId) : Vouched D (CommandGate.resetContext {} ctx) :=
  resetContext_vouched ctx (D := fun _ => True) ⟨by decide,by decide,fun _ _ _ _ => trivial⟩

theorem step_sound (s : Station σ) (i : Input σ) (sound : Sound s) (unhindered : Unhindered mac s i) : Sound (step mac ops s i) := by
  cases i with
  | engine input => exact engine_sound s input sound unhindered
  | reboot random phy app => exact ⟨rfl,fresh_vouched _⟩
  | app app => exact core_sound sound rfl

variable (mac ops)

theorem start_sound (id : NodeId) (ver : UInt8) (key : NodeKey) (random : RandomFn) (phy : PhyTrial) (app : σ) :
    Sound (start id ver key random phy app) := ⟨rfl,fresh_vouched _⟩

-- The answer to one frame: a cached ACCEPTED is an entry of the gate.
theorem cached_forwarded (s : Station σ) (buf : Bytes) (random : RandomFn) (nowMs : UInt32) (sound : Sound s)
    (domain : hexTraffic (.engine (.receive buf random nowMs) : Input σ) = true) (bytes : Bytes) (ctxId : CtxId) (ack : CommandAck)
    (queued : bytes ∈ sent s.engine (s.engine.receive mac ops buf random nowMs)) (answer : ackIn bytes = some (ctxId,ack))
    (cached : ack.result = AckResult.duplicateCached.code) (accepted : ack.detail = AckResult.accepted.code) : ⟨ctxId,ack.ackSeq⟩ ∈ s.forwarded := by
  simp only [hexTraffic,Bool.and_eq_true,bne_iff_ne,ne_eq] at domain
  have silent : ∀ P : Header → Bytes → Prop, (∀ hdr body, P hdr body → Unclaiming hdr body) → ∀ core made,
      Effect mac P s.engine (s.engine.receive mac ops buf random nowMs) core made → False := by
    intro P unclaiming core made effect
    obtain ⟨frames,outbox,each⟩ := effect.outbox
    rw [sent_of_outbox outbox] at queued
    obtain ⟨hdr,body,holds,encoded⟩ := each bytes queued
    obtain ⟨isAck,_,reads⟩ := ackIn_encoded encoded answer
    obtain ⟨seq,result,detail,other,said⟩ := unclaiming hdr body holds isAck
    rw [reads _ said] at cached
    exact other (AckResult.code_injective _ _ cached)
  rcases receive_hexTraffic mac ops s.engine buf random nowMs domain.1 domain.2 with quiet | ⟨payload,f,_,_,_,_,served,_⟩
  · exact (silent _ (fun _ _ unclaiming => unclaiming) _ _ quiet).elim
  · obtain ⟨P,core,h,made,outcome,effect,_⟩ := served
    cases outcome with
    | quiet => exact (silent _ (fun hdr body mute => unclaiming_of_noAck hdr body mute.1) _ _ effect).elim
    | rejected =>
        refine (silent _ (fun hdr body answers isAck => ?_) _ _ effect).elim
        exact ⟨_,.rejectedSeq,_,by decide,(answers.1 isAck).2.2⟩
    | refused => exact (silent _ (fun hdr body answers => unclaiming_of_noAck hdr body answers.2) _ _ effect).elim
    | replied => exact (silent _ (fun hdr body answers => unclaiming_of_noAck hdr body answers.2) _ _ effect).elim
    | waits => exact (silent _ (fun hdr body mute => unclaiming_of_noAck hdr body mute.1) _ _ effect).elim
    | cached slot _ found settled =>
        obtain ⟨frames,outbox,each⟩ := effect.outbox
        rw [sent_of_outbox outbox] at queued
        obtain ⟨hdr,body,answers,encoded⟩ := each bytes queued
        obtain ⟨isAck,rfl,reads⟩ := ackIn_encoded encoded answer
        obtain ⟨_,sameCtx,said⟩ := answers.1 isAck
        obtain rfl := reads _ said
        rw [sameCtx]
        exact sound.vouched.cached found settled (AckResult.code_injective _ _ accepted)

-- In every run in which no write passes the gate while a transaction is outstanding, whatever is answered as a cached
-- ACCEPTED was forwarded earlier in the same context.
theorem cached_accepted_was_forwarded (id : NodeId) (ver : UInt8) (key : NodeKey) (random : RandomFn) (phy : PhyTrial) (app : σ) (s : Station σ)
    (path : Reached (step mac ops) (Unhindered mac) (start id ver key random phy app) s) (buf : Bytes) (draws : RandomFn) (nowMs : UInt32)
    (domain : hexTraffic (.engine (.receive buf draws nowMs) : Input σ) = true) (bytes : Bytes) (ctxId : CtxId) (ack : CommandAck)
    (queued : bytes ∈ sent s.engine (s.engine.receive mac ops buf draws nowMs)) (answer : ackIn bytes = some (ctxId,ack))
    (cached : ack.result = AckResult.duplicateCached.code) (accepted : ack.detail = AckResult.accepted.code) : ⟨ctxId,ack.ackSeq⟩ ∈ s.forwarded := by
  have sound : Sound s :=
    path.invariant Sound (start_sound id ver key random phy app) fun s i sound unhindered => step_sound s i sound unhindered
  exact cached_forwarded mac ops s buf draws nowMs sound domain bytes ctxId ack queued answer cached accepted

end

-- A charger that takes its time, and the HEX_REQs of a bridge in context 10: a read with seq 5, a write with seq 1.
def node : Station Unit := start nodeGateLink protoVer zeroKey (fun _ => 10) {} ()

def reading : Bytes := AckContext.framed .hexReq 5 (HexReq.serialize {hex := [0x3A,0x37]})

def writing : Bytes := AckContext.framed .hexReq 1 (HexReq.serialize {hex := [0x3A,0x38]})

def arrives (buf : Bytes) : Input Unit := .engine (.receive buf (fun _ => 20) 0)

def atOnce : List (Input Unit) := [arrives writing,.engine (.completeHex .ok [0x3A,0x38])]

def behindRead : List (Input Unit) := [arrives reading,arrives writing]

def played (run : List (Input Unit)) : Station Unit := run.foldl (step lengthMac AckContext.patient) node

-- The answers to one more copy of the write.
def retried (run : List (Input Unit)) : List (Option (CtxId × CommandAck)) :=
  (sent (played run).engine ((played run).engine.receive lengthMac AckContext.patient writing (fun _ => 20) 0)).map ackIn

theorem cached_accepted_was_forwarded_once :
    some (10,⟨1,AckResult.duplicateCached.code,AckResult.accepted.code⟩) ∈ retried atOnce ∧ ⟨10,1⟩ ∈ (played atOnce).forwarded := by
  have heard : some (10,⟨1,AckResult.duplicateCached.code,AckResult.accepted.code⟩) ∈ retried atOnce := by decide +kernel
  have run : Follows (step lengthMac AckContext.patient) (Unhindered lengthMac) node atOnce := by decide +kernel
  obtain ⟨bytes,queued,answer⟩ := List.mem_map.mp heard
  exact ⟨heard,cached_accepted_was_forwarded lengthMac AckContext.patient nodeGateLink protoVer zeroKey (fun _ => 10) {} () (played atOnce)
    run.reached writing (fun _ => 20) 0 (by decide +kernel) bytes 10 _ queued answer rfl rfl⟩

-- A write that came behind a read is answered BUSY, and its retry as an accepted one that was never forwarded.
theorem busy_write_cached_as_accepted :
    (∀ i ∈ behindRead, hexTraffic i = true) ∧
      retried behindRead = [some (10,⟨1,AckResult.duplicateCached.code,AckResult.accepted.code⟩)] ∧ ⟨10,1⟩ ∉ (played behindRead).forwarded := by
  decide +kernel

end LoraRan.System.ForwardedWrites
