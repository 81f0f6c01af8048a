import LoraRan.Bridge.LadderChunk
import LoraRan.System.OwedReports

namespace LoraRan.System.ChunkTruth
open Protocol Node Bridge Library.Occurrence
open OwedReports (Input step all_voices all_says)

section
variable {σ : Type} (mac : Mac) (ops : Application σ)

-- A fragment past the codec, on its way to reassembly.
def fragmentOf (n : Engine σ) (buf : Protocol.Bytes) : Option Frame :=
  match decodeHeader buf n.ctx.headerCtx with
  | (.ok,head) =>
      match decodePayload buf (n.ctx.payloadCtx mac) head with
      | (.ok,f) => if frameHasMac f.hdr.type f.payload ∧ !f.macVerified then none else if f.hdr.fragTotal = 1 then none else some f
      | _ => none
  | _ => none

def gathering (n : Engine σ) (set_ : List Frame) : Gathering :=
  {slot := n.ctx.reassembler,counters := n.counted.ctx.counters,accepted := set_}

-- A node over a run, with the fragments that made up its set.
structure EngineRun (σ : Type) where
  engine : Engine σ
  set_ : List Frame := []

def EngineRun.sorted (s : EngineRun σ) : Input σ → List Frame
  | .engine (.receive buf _ nowMs) =>
      match fragmentOf mac s.engine buf with
      | none => s.set_
      | some f => (gathering s.engine s.set_).acceptedAfter f nowMs
  | _ => s.set_

def EngineRun.step (s : EngineRun σ) (input : Input σ) : EngineRun σ :=
  {engine := OwedReports.step mac ops s.engine input,set_ := s.sorted mac input}

-- A context begun, and what it is asked to do from there.
def engineRun (n : Engine σ) (random : RandomFn) (inputs : List (Input σ)) : EngineRun σ :=
  inputs.foldl (EngineRun.step mac ops) {engine := {n with ctx := resetContext n.ctx random}}

-- The chunk kept in the context is not left over for this fragment.
def EngineRun.Renewed (s : EngineRun σ) : Input σ → Prop
  | .engine (.receive buf _ nowMs) => ∀ f, fragmentOf mac s.engine buf = some f →
      Renews (gathering s.engine s.set_) s.engine.ctx.rxChunk (!s.engine.ctx.reassembler.active) f nowMs
  | _ => True

-- A set of several fragments is handed over whole, with its own chunk in the context.
def EngineRun.Truthful (s : EngineRun σ) : Input σ → Prop
  | .engine (.receive buf _ nowMs) => ∀ m hdr payload fragments, Hands mac s.engine buf nowMs m hdr payload fragments → fragments ≠ 1 →
      ∃ f, fragmentOf mac s.engine buf = some f ∧ (gathering s.engine s.set_).Finishes f nowMs ∧
        payload = (gathering s.engine s.set_).assembled f nowMs ∧ m.ctx.rxChunk.toNat = longest ((gathering s.engine s.set_).setOf f nowMs)
  | _ => True

def EngineRun.Fits (s : EngineRun σ) : Prop := Cutting s.engine.ctx.reassembler s.set_ s.engine.ctx.rxChunk

variable {mac ops}

-- A step that leaves the chunk alone, and of the reassembler moves only the timeout.
structure Sits (n n' : Engine σ) : Prop where
  reassembler : ∃ ms, n'.ctx.reassembler = n.ctx.reassembler.setTimeoutMs ms
  rxChunk : n'.ctx.rxChunk = n.ctx.rxChunk

theorem Sits.cutting {n n' : Engine σ} {set_ : List Frame} (sits : Sits n n') (held : Cutting n.ctx.reassembler set_ n.ctx.rxChunk) :
    Cutting n'.ctx.reassembler set_ n'.ctx.rxChunk := by
  obtain ⟨ms,moved⟩ := sits.reassembler
  rw [moved,sits.rxChunk]
  exact cutting_timeout held ms

theorem Sits.of_parts {n n' : Engine σ} (acts : Acts ops (fun _ => True) n n') (keeps : Keeps mac ops (fun _ _ => True) n n') : Sits n n' := ⟨acts.reassembler,keeps.rxChunk⟩

theorem Sits.after {n m n' : Engine σ} (sits : Sits m n') (reassembler : m.ctx.reassembler = n.ctx.reassembler)
    (rxChunk : m.ctx.rxChunk = n.ctx.rxChunk) : Sits n n' := ⟨reassembler ▸ sits.reassembler,sits.rxChunk.trans rxChunk⟩

theorem Sits.quiet (n n' : Engine σ) (reassembler : n'.ctx.reassembler = n.ctx.reassembler) (rxChunk : n'.ctx.rxChunk = n.ctx.rxChunk) :
    Sits n n' := ⟨⟨n.ctx.reassembler.timeoutMs,reassembler⟩,rxChunk⟩

variable (mac ops)

theorem all_answers (type : MsgType) : AdmitsAnswers ops (fun _ _ => True) type where
  poll _ _ _ _ _ _ _ _ a _ := all_says a
  ping _ _ _ _ _ _ _ _ _ a _ := all_says a

theorem all_tells (reason : StatusReason) : Tells ops (fun _ _ => True) reason := fun _ _ _ _ _ _ => trivial

theorem deliver_sits (n : Engine σ) (hdr : Header) (payload : Protocol.Bytes) (fragments : UInt8) (random : RandomFn) (nowMs : UInt32) :
    Sits n (n.deliver mac ops hdr payload fragments random nowMs) := by
  obtain ⟨served,acts,left⟩ := deliver_acts mac ops n hdr payload fragments random nowMs
  constructor
  · rw [left]
    exact acts.reassembler
  · by_cases heard : hdr.src = nodeBridge ∧ n.ctx.phyRevertDetail ≠ 0
    · have posts := (sendPhyReverted_posts mac ops (P := fun _ _ => True) (n.serve hdr payload) hdr.src nowMs fun _ _ _ => trivial).keeps
      have keeps := deliver_reverted mac ops all_voices n hdr (all_answers ops hdr.type) payload fragments random nowMs heard fun _ _ => trivial
      exact keeps.rxChunk.trans posts.rxChunk
    · exact (deliver_keeps mac ops all_voices n hdr (all_answers ops hdr.type) payload fragments random nowMs heard fun _ _ => trivial).rxChunk

include ops in
theorem refuse_sits (n : Engine σ) (hdr : Header) (why : Status) : Sits n (n.refuseAuthenticated mac hdr why) :=
  .of_parts (refuseAuthenticated_acts mac ops n hdr why) (refuseAuthenticated_keeps mac ops all_voices n hdr why)

theorem finish_sits (n : Engine σ) (nowMs : UInt32) : Sits n (n.finishCommand mac ops nowMs) :=
  .of_parts (finishCommand_acts mac ops n nowMs) (finishCommand_keeps mac ops all_voices n nowMs fun _ _ => trivial)

theorem fragmentOf_iff (n : Engine σ) (buf : Protocol.Bytes) (f : Frame) :
    fragmentOf mac n buf = some f ↔ Decodes mac n.counted buf f ∧ f.hdr.fragTotal ≠ 1 := by
  unfold fragmentOf
  constructor
  · intro passed
    split at passed
    · rename_i head headed
      split at passed
      · rename_i decoded
        split at passed; · cases passed
        rename_i verified
        split at passed; · cases passed
        rename_i longer
        cases passed
        refine ⟨⟨⟨head,headed,decoded⟩,?_⟩,longer⟩
        intro has
        by_contra unverified
        rw [Bool.not_eq_true] at unverified
        exact verified ⟨has,by rw [unverified]; rfl⟩
      · cases passed
    · cases passed
  · rintro ⟨⟨⟨head,headed,decoded⟩,verified⟩,longer⟩
    have header : decodeHeader buf n.ctx.headerCtx = (.ok,head) := headed
    have payload : decodePayload buf (n.ctx.payloadCtx mac) head = (.ok,f) := decoded
    rw [header]
    dsimp only
    rw [payload]
    dsimp only
    rw [if_neg (fun both => by rw [verified both.1] at both; exact absurd both.2 Bool.false_ne_true),if_neg longer]

theorem decodes_passable {n : Engine σ} {buf : Protocol.Bytes} {f : Frame} (decodes : Decodes mac n buf f) (longer : f.hdr.fragTotal ≠ 1) :
    Passable f := by
  obtain ⟨head,headed,decoded⟩ := decodes.header
  exact decoded_passable buf _ _ head f headed decoded longer decodes.verified

-- A frame that is no fragment is handed over, or refused, and the set stands as it was.
theorem receive_unfragmented (n : Engine σ) (buf : Protocol.Bytes) (random : RandomFn) (nowMs : UInt32)
    (none_ : fragmentOf mac n buf = none) : Sits n (n.receive mac ops buf random nowMs) := by
  have no_fragment : ∀ f, Decodes mac n.counted buf f → f.hdr.fragTotal = 1 := by
    intro f decodes
    by_contra longer
    rw [(fragmentOf_iff mac n buf f).mpr ⟨decodes,longer⟩] at none_
    cases none_
  rcases receive_outcomes mac ops n buf random nowMs with ⟨m,hdr,payload,fragments,hands,received⟩ | ⟨f,decodes,longer,_⟩ | received |
    ⟨s,received⟩ | ⟨s,hdr,received⟩
  · rw [received]
    cases hands with
    | single f => exact (deliver_sits mac ops n.counted f.hdr f.payload 1 random nowMs).after rfl rfl
    | set f decodes longer => exact absurd (no_fragment f decodes) longer
  · exact absurd (no_fragment f decodes) longer
  · rw [received]
    exact Sits.quiet _ _ rfl rfl
  · rw [received]
    exact Sits.quiet _ _ rfl rfl
  · rw [received]
    exact (refuse_sits mac ops (n.counted.bump s) hdr s).after rfl rfl

-- A fragment is gathered, and what its set then makes is handed over from the engine that gathered it.
theorem receive_fragment (n : Engine σ) (buf : Protocol.Bytes) (random : RandomFn) (nowMs : UInt32) (f : Frame)
    (passed : fragmentOf mac n buf = some f) : Sits (n.counted.gather f nowMs).2 (n.receive mac ops buf random nowMs) := by
  obtain ⟨⟨⟨head,headed,decoded⟩,verified⟩,longer⟩ := (fragmentOf_iff mac n buf f).mp passed
  have received : n.receive mac ops buf random nowMs = n.counted.receiveFragment mac ops f random nowMs := by
    unfold Engine.receive
    dsimp only
    split
    · rename_i head' headed'
      cases headed'.symm.trans headed
      split
      · rename_i decoded'
        cases decoded'.symm.trans decoded
        rw [if_neg (fun both => by rw [verified both.1] at both; exact absurd both.2 Bool.false_ne_true),if_neg longer]
        rfl
      · rename_i other read
        exact absurd (Prod.ext_iff.mp (read.symm.trans decoded)).1 other
    · rename_i other read
      exact absurd (Prod.ext_iff.mp (read.symm.trans headed)).1 other
  rw [received,receiveFragment_gather]
  split
  · exact Sits.quiet _ _ rfl rfl
  · exact deliver_sits mac ops _ _ _ _ random nowMs

variable {mac ops}

theorem live_kept (s : EngineRun σ) (f : Frame) (nowMs : UInt32) (joins : (gathering s.engine s.set_).joins f nowMs = true) :
    (!s.engine.ctx.reassembler.active) = false := by
  obtain ⟨_,live⟩ := joins_live _ f nowMs joins
  have active : s.engine.ctx.reassembler.active = true := live
  rw [active]
  rfl

theorem gathered_fits (s : EngineRun σ) (fits : s.Fits) (f : Frame) (nowMs : UInt32) (passable : Passable f)
    (renews : Renews (gathering s.engine s.set_) s.engine.ctx.rxChunk (!s.engine.ctx.reassembler.active) f nowMs) :
    Cutting (s.engine.counted.gather f nowMs).2.ctx.reassembler ((gathering s.engine s.set_).acceptedAfter f nowMs)
      (s.engine.counted.gather f nowMs).2.ctx.rxChunk := by
  exact cutting_accept fits s.engine.counted.ctx.counters _ f nowMs passable (live_kept s f nowMs) renews

theorem fragment_fits (s : EngineRun σ) (fits : s.Fits) (buf : Protocol.Bytes) (random : RandomFn) (nowMs : UInt32)
    (renewed : s.Renewed mac (.engine (.receive buf random nowMs))) : (s.step mac ops (.engine (.receive buf random nowMs))).Fits := by
  unfold EngineRun.Fits EngineRun.step
  dsimp only
  cases passed : fragmentOf mac s.engine buf with
  | none =>
    have sorted : s.sorted mac (.engine (.receive buf random nowMs)) = s.set_ := by simp only [EngineRun.sorted,passed]
    rw [sorted]
    exact (receive_unfragmented mac ops s.engine buf random nowMs passed).cutting fits
  | some f =>
    have sorted : s.sorted mac (.engine (.receive buf random nowMs)) = (gathering s.engine s.set_).acceptedAfter f nowMs := by
      simp only [EngineRun.sorted,passed]
    obtain ⟨decodes,longer⟩ := (fragmentOf_iff mac s.engine buf f).mp passed
    rw [sorted]
    exact (receive_fragment mac ops s.engine buf random nowMs f passed).cutting
      (gathered_fits s fits f nowMs (decodes_passable mac decodes longer) (renewed f passed))

theorem handed_truthful (s : EngineRun σ) (fits : s.Fits) (buf : Protocol.Bytes) (random : RandomFn) (nowMs : UInt32)
    (renewed : s.Renewed mac (.engine (.receive buf random nowMs))) : s.Truthful mac (.engine (.receive buf random nowMs)) := by
  intro m hdr payload fragments hands several
  cases hands with
  | single f decodes whole => exact absurd rfl several
  | set f decodes longer taken complete =>
    have passed := (fragmentOf_iff mac s.engine buf f).mpr ⟨decodes,longer⟩
    have passable := decodes_passable mac decodes longer
    have renews := renewed f passed
    have delivered := cutting_delivered fits s.engine.counted.ctx.counters (!s.engine.ctx.reassembler.active) f nowMs passable
      (live_kept s f nowMs) renews taken complete
    obtain ⟨out,finishes,own⟩ := delivered
    refine ⟨f,passed,finishes,out,?_⟩
    have chunk : (s.engine.counted.gather f nowMs).2.ctx.rxChunk =
        widen (if !s.engine.ctx.reassembler.active then 0 else s.engine.ctx.rxChunk) (s.engine.counted.gather f nowMs).1 f := rfl
    rw [chunk,taken]
    exact own

-- The reset of a context empties its set.
theorem reset_fits (c : Context) (random : RandomFn) (set_ : List Frame) :
    Cutting (resetContext c random).reassembler set_ (resetContext c random).rxChunk :=
  cutting_idle ((reset_tidy c.reassembler).of_same rfl rfl rfl rfl rfl) rfl

theorem step_fits (s : EngineRun σ) (fits : s.Fits) (input : Input σ) (renewed : s.Renewed mac input) :
    (s.step mac ops input).Fits ∧ s.Truthful mac input := by
  have own : ∀ n', Sits s.engine n' → Cutting n'.ctx.reassembler s.set_ n'.ctx.rxChunk := fun _ sits => sits.cutting fits
  cases input with
  | engine input =>
    cases input with
    | receive buf random nowMs => exact ⟨fragment_fits s fits buf random nowMs renewed,handed_truthful s fits buf random nowMs renewed⟩
    | notePhyRevert cause => exact ⟨own _ (Sits.quiet _ _ rfl rfl),trivial⟩
    | transmit => exact ⟨own _ (Sits.quiet _ _ rfl rfl),trivial⟩
    | tick nowMs =>
      have hex : ∀ n : Engine σ, Sits n (n.tickHex mac nowMs) := fun n =>
        .of_parts (tickHex_acts mac ops n nowMs) (tickHex_keeps mac ops all_voices n nowMs)
      exact ⟨(hex _).cutting (cutting_tick fits s.engine.ctx.counters nowMs),trivial⟩
    | finishCommand nowMs => exact ⟨own _ (finish_sits mac ops s.engine nowMs),trivial⟩
    | finishCommandWith nowMs result => exact ⟨own _ ((finish_sits mac ops _ nowMs).after rfl rfl),trivial⟩
    | completeHex status hex =>
      exact ⟨own _ (.of_parts (completeHex_acts mac ops s.engine status hex)
        (completeHex_keeps mac ops all_voices s.engine status hex)),trivial⟩
    | reset random => exact ⟨reset_fits s.engine.ctx random s.set_,trivial⟩
    | roll random => exact ⟨own _ (Sits.quiet _ _ rfl rfl),trivial⟩
    | announceBoot cause nowMs =>
      exact ⟨own _ (.of_parts (announceBoot_acts mac ops s.engine cause nowMs)
        (announceBoot_keeps mac ops s.engine cause nowMs (all_tells ops .boot) fun _ _ _ => trivial)),trivial⟩
    | tune tunings => exact ⟨own _ (.of_parts (tune_acts s.engine tunings) (tune_keeps mac ops s.engine tunings)),trivial⟩
    | board phy => exact ⟨own _ (Sits.quiet _ _ rfl rfl),trivial⟩
  | pushStatus dst reason nowMs =>
    exact ⟨own _ (.of_parts (sendStatus_sends mac ops s.engine dst reason nowMs).acts
      (sendStatus_keeps mac ops s.engine dst reason nowMs (all_tells ops reason) fun _ _ => all_tells ops .configChange)),trivial⟩
  | pushEvent dst payload schema =>
    exact ⟨own _ (.of_parts (sendEvent_sends mac ops s.engine dst payload schema).acts
      (sendEvent_posts mac ops s.engine dst payload schema fun _ _ _ => trivial).keeps),trivial⟩
  | app app => exact ⟨own _ (Sits.quiet _ _ rfl rfl),trivial⟩

variable (mac ops)

theorem engineRun_snoc (n : Engine σ) (random : RandomFn) (pre : List (Input σ)) (input : Input σ) :
    engineRun mac ops n random (pre ++ [input]) = (engineRun mac ops n random pre).step mac ops input := by
  unfold engineRun
  rw [List.foldl_append]
  rfl

theorem engineRun_fits (n : Engine σ) (random : RandomFn) (inputs : List (Input σ))
    (renewed : Always (fun pre input => (engineRun mac ops n random pre).Renewed mac input) inputs) :
    (engineRun mac ops n random inputs).Fits ∧ Always (fun pre input => (engineRun mac ops n random pre).Truthful mac input) inputs := by
  induction inputs using List.reverseRecOn with
  | nil => exact ⟨reset_fits n.ctx random [],always_nil⟩
  | append_singleton pre input ih =>
    obtain ⟨before,last⟩ := (always_snoc pre input).mp renewed
    obtain ⟨fits,truthful⟩ := ih before
    obtain ⟨next,told⟩ := step_fits (engineRun mac ops n random pre) fits input last
    rw [engineRun_snoc]
    exact ⟨next,(always_snoc pre input).mpr ⟨truthful,told⟩⟩

-- While no chunk is left over for the fragments that begin a set, every set delivered by the bridge's ladder and every set handed over
-- by a node comes with the largest payload of its own fragments.
theorem delivered_chunk_is_the_sets_own (v : Receiver) (heard : List Heard) (n : Engine σ) (random : RandomFn) (inputs : List (Input σ)) :
    (Always (fun pre h => (ladderRun v pre).Renewed h) heard → Always (fun pre h => (ladderRun v pre).Truthful h) heard) ∧
    (Always (fun pre input => (engineRun mac ops n random pre).Renewed mac input) inputs →
      Always (fun pre input => (engineRun mac ops n random pre).Truthful mac input) inputs) :=
  ⟨fun renewed => (ladderRun_fits v heard renewed).2,fun renewed => (engineRun_fits mac ops n random inputs renewed).2⟩

end

-- A piece of a two-fragment PING.
def pingPart (src dst : NodeId) (index : UInt8) (payload : Protocol.Bytes) : Protocol.Bytes :=
  withCrc (writeHeader (({type := .ping,src := src,dst := dst,seq := 7,ctxId := 3} : Header).setFrag index 2) ++ payload)

def toBridge : List Heard := [.frame (pingPart 0x02 nodeBridge 0 [1,2,3]) 10,.frame (pingPart 0x02 nodeBridge 1 [4]) 20]

def node : Engine Unit := {ctx := {id := nodeGateLink},app := ()}

def toNode (times : Nat → UInt32) (pieces : List (UInt8 × Protocol.Bytes)) : List (Input Unit) :=
  pieces.zipIdx.map fun ((index,payload),k) => .engine (.receive (pingPart nodeBridge nodeGateLink index payload) (fun _ => 20) (times k))

-- A set in hand is joined, or an idle slot is given its first fragment.
theorem renews_plain (s : Gathering) (chunk : UInt8) (resets : Bool) (f : Frame) (nowMs : UInt32)
    (plain : (s.joins f nowMs || (resets && !(s.slot.tick s.counters nowMs).1.active)) = true) : Renews s chunk resets f nowMs := by
  rcases Bool.or_eq_true_iff.mp plain with joins | first
  · refine ⟨fun apart => absurd (joins.symm.trans apart) (by decide),fun late => ?_⟩
    unfold Gathering.late at late
    rw [joins] at late
    cases late
  · obtain ⟨reset,idle⟩ := Bool.and_eq_true_iff.mp first
    refine ⟨fun _ _ => .inl reset,fun _ live => ?_⟩
    rw [live] at idle
    cases idle

theorem ladder_plain (s : LadderRun) (buf : Protocol.Bytes) (nowMs : UInt32)
    (plain : ((s.ladder.routed buf nowMs).all fun r => (r.gathering s.sets).joins r.frame nowMs ||
      (r.resets && !((r.gathering s.sets).slot.tick (r.gathering s.sets).counters nowMs).1.active)) = true) : s.Renewed (.frame buf nowMs) := by
  intro r routed
  rw [routed] at plain
  exact renews_plain _ _ _ _ _ plain

theorem engine_plain {σ : Type} (mac : Mac) (s : EngineRun σ) (buf : Protocol.Bytes) (random : RandomFn) (nowMs : UInt32)
    (plain : ((fragmentOf mac s.engine buf).all fun f => (gathering s.engine s.set_).joins f nowMs || (!s.engine.ctx.reassembler.active &&
      !((gathering s.engine s.set_).slot.tick (gathering s.engine s.set_).counters nowMs).1.active)) = true) :
    s.Renewed mac (.engine (.receive buf random nowMs)) := by
  intro f passed
  rw [passed] at plain
  exact renews_plain _ _ _ _ _ plain

theorem delivered_chunk_of_a_ping :
    Always (fun pre h => (ladderRun provisioned pre).Truthful h) toBridge ∧
      Always (fun pre input => (engineRun lengthMac CommandLink.obedient node (fun _ => 10) pre).Truthful lengthMac input)
        (toNode (fun _ => 10) [(0,[1,2,3]),(1,[4])]) := by
  obtain ⟨ladder,engine⟩ := delivered_chunk_is_the_sets_own lengthMac CommandLink.obedient provisioned toBridge node (fun _ => 10)
    (toNode (fun _ => 10) [(0,[1,2,3]),(1,[4])])
  refine ⟨ladder ?_,engine ?_⟩
  · refine (always_snoc [_] _).mpr ⟨(always_snoc [] _).mpr ⟨always_nil,?_⟩,?_⟩
    · exact ladder_plain _ _ _ (by decide +kernel)
    · exact ladder_plain _ _ _ (by decide +kernel)
  · refine (always_snoc [_] _).mpr ⟨(always_snoc [] _).mpr ⟨always_nil,?_⟩,?_⟩
    · exact engine_plain lengthMac _ _ _ _ (by decide +kernel)
    · exact engine_plain lengthMac _ _ _ _ (by decide +kernel)

-- A PING of two one-byte pieces, sent while a set of the same number that broke off an hour before has yet to be expired.
def brokenOff : List Heard :=
  [.frame (pingPart 0x02 nodeBridge 0 [1,2,3]) 10,.frame (pingPart 0x02 nodeBridge 0 [1]) 3600000,.frame (pingPart 0x02 nodeBridge 1 [2]) 3600001]

def brokenOffAtNode : List (Input Unit) := toNode (fun k => if k = 0 then 10 else 3600000) [(0,[1,2,3]),(0,[1]),(1,[2])]

-- The PING's set is two single bytes, and it is delivered with the chunk of the set before it.
theorem expired_set_leaves_its_chunk :
    ¬Always (fun pre h => (ladderRun provisioned pre).Truthful h) brokenOff ∧
      ¬Always (fun pre input => (engineRun lengthMac CommandLink.obedient node (fun _ => 10) pre).Truthful lengthMac input) brokenOffAtNode := by
  constructor
  · intro always
    have truthful := ((always_snoc (brokenOff.take 2) (.frame (pingPart 0x02 nodeBridge 1 [2]) 3600001)).mp always).2
    let s := ladderRun provisioned (brokenOff.take 2)
    have carried : ((s.ladder.accept (pingPart 0x02 nodeBridge 1 [2]) 3600001).1.map fun d => (d.fragments,d.fragChunk)) = some (2,3) := by
      decide +kernel
    have own : ((s.ladder.routed (pingPart 0x02 nodeBridge 1 [2]) 3600001).map
        fun r => longest ((r.gathering s.sets).setOf r.frame 3600001)) = some 1 := by decide +kernel
    obtain ⟨d,delivered,parts⟩ := Option.map_eq_some_iff.mp carried
    obtain ⟨several,chunk⟩ := Prod.ext_iff.mp parts
    dsimp only at several chunk
    obtain ⟨r,routed,_,_,same⟩ := truthful d delivered (by rw [several]; decide)
    obtain ⟨r',routed',one⟩ := Option.map_eq_some_iff.mp own
    cases routed'.symm.trans routed
    rw [chunk,one] at same
    exact absurd same (by decide)
  · intro always
    have truthful := ((always_snoc (brokenOffAtNode.take 2)
      (.engine (.receive (pingPart nodeBridge nodeGateLink 1 [2]) (fun _ => 20) 3600000))).mp always).2
    let s := engineRun lengthMac CommandLink.obedient node (fun _ => 10) (brokenOffAtNode.take 2)
    have carried : ((fragmentOf lengthMac s.engine (pingPart nodeBridge nodeGateLink 1 [2])).map fun f =>
        ((s.engine.counted.gather f 3600000).1,(s.engine.counted.gather f 3600000).2.ctx.reassembler.complete,f.hdr.fragTotal,
          (s.engine.counted.gather f 3600000).2.ctx.rxChunk,longest ((gathering s.engine s.set_).setOf f 3600000))) =
        some (.ok,true,2,3,1) := by decide +kernel
    obtain ⟨f,passed,parts⟩ := Option.map_eq_some_iff.mp carried
    simp only [Prod.mk.injEq] at parts
    obtain ⟨taken,complete,two,chunk,own⟩ := parts
    obtain ⟨decodes,longer⟩ := (fragmentOf_iff lengthMac s.engine _ f).mp passed
    have hands := Hands.set f decodes longer taken complete
    obtain ⟨g,passed',_,_,same⟩ := truthful _ _ _ _ hands longer
    cases passed.symm.trans passed'
    rw [chunk,own] at same
    exact absurd same (by decide)

end LoraRan.System.ChunkTruth
