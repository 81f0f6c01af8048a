import LoraRan.Node.Reports

namespace LoraRan.Node
open Protocol

section
variable {σ : Type}

def Engine.counted (n : Engine σ) : Engine σ :=
  {n with ctx := {n.ctx with counters := {n.ctx.counters with rxFrames := n.ctx.counters.rxFrames + 1}}}

-- A fragment's set as receive() leaves it, before a set it completes is handed over.
def Engine.gather (n : Engine σ) (f : Frame) (nowMs : UInt32) : Status × Engine σ :=
  let chunk := if !n.ctx.reassembler.active then 0 else n.ctx.rxChunk
  let (st,reassembler,counters) := n.ctx.reassembler.accept n.ctx.counters f nowMs
  let chunk := if st = .ok ∧ chunk.toNat < f.payload.length then UInt8.ofNat f.payload.length else chunk
  (st,{n with ctx := {n.ctx with reassembler := reassembler,counters := counters,rxChunk := chunk}})

-- A frame past the codec, for the node in the state it is received in.
structure Decodes (mac : Mac) (n : Engine σ) (buf : Bytes) (f : Frame) : Prop where
  header : ∃ head, decodeHeader buf n.ctx.headerCtx = (.ok,head) ∧ decodePayload buf (n.ctx.payloadCtx mac) head = (.ok,f)
  verified : frameHasMac f.hdr.type f.payload = true → f.macVerified = true

-- A payload the receive path hands over, and the engine it is handed over in.
inductive Hands (mac : Mac) (n : Engine σ) (buf : Bytes) (nowMs : UInt32) : Engine σ → Header → Bytes → UInt8 → Prop
  | single (f : Frame) (decodes : Decodes mac n.counted buf f) (whole : f.hdr.fragTotal = 1) :
      Hands mac n buf nowMs n.counted f.hdr f.payload 1
  | set (f : Frame) (decodes : Decodes mac n.counted buf f) (cut : f.hdr.fragTotal ≠ 1) (taken : (n.counted.gather f nowMs).1 = .ok)
      (complete : (n.counted.gather f nowMs).2.ctx.reassembler.complete = true) :
      Hands mac n buf nowMs (n.counted.gather f nowMs).2 f.hdr (n.counted.gather f nowMs).2.ctx.reassembler.out f.hdr.fragTotal

-- The receive side is all that differs in the engine a payload is handed over in.
structure SameSends (n m : Engine σ) : Prop where
  key : m.ctx.key = n.ctx.key
  revert : m.ctx.phyRevertDetail = n.ctx.phyRevertDetail
  owed : m.ctx.configChangeOwed = n.ctx.configChangeOwed
  gate : m.ctx.gate = n.ctx.gate
  pending : m.ctx.pending = n.ctx.pending
  outbox : m.outbox = n.outbox

theorem Hands.same {mac : Mac} {n m : Engine σ} {buf : Bytes} {nowMs : UInt32} {hdr : Header} {payload : Bytes} {fragments : UInt8}
    (hands : Hands mac n buf nowMs m hdr payload fragments) : SameSends n m := by
  cases hands with
  | single => exact ⟨rfl,rfl,rfl,rfl,rfl,rfl⟩
  | set => exact ⟨rfl,rfl,rfl,rfl,rfl,rfl⟩

section
variable (mac : Mac) (ops : Application σ) {C : Prop} {P : Header → Bytes → Prop}

theorem receiveFragment_gather (n : Engine σ) (f : Frame) (random : RandomFn) (nowMs : UInt32) :
    n.receiveFragment mac ops f random nowMs =
      if (n.gather f nowMs).1 ≠ .ok ∨ !(n.gather f nowMs).2.ctx.reassembler.complete then (n.gather f nowMs).2
      else (n.gather f nowMs).2.deliver mac ops f.hdr (n.gather f nowMs).2.ctx.reassembler.out f.hdr.fragTotal random nowMs := rfl

-- A frame is handed over, or is a fragment taken or refused, or is refused by the codec.
theorem receive_outcomes (n : Engine σ) (buf : Bytes) (random : RandomFn) (nowMs : UInt32) :
    (∃ m hdr payload fragments, Hands mac n buf nowMs m hdr payload fragments ∧
      n.receive mac ops buf random nowMs = m.deliver mac ops hdr payload fragments random nowMs) ∨
    (∃ f, Decodes mac n.counted buf f ∧ f.hdr.fragTotal ≠ 1 ∧ n.receive mac ops buf random nowMs = (n.counted.gather f nowMs).2 ∧
      ¬ ((n.counted.gather f nowMs).1 = .ok ∧ (n.counted.gather f nowMs).2.ctx.reassembler.complete = true)) ∨
    n.receive mac ops buf random nowMs = n.counted.unhandled ∨
    (∃ s, n.receive mac ops buf random nowMs = n.counted.bump s) ∨
    ∃ s hdr, n.receive mac ops buf random nowMs = (n.counted.bump s).refuseAuthenticated mac hdr s := by
  unfold Engine.receive
  dsimp only
  split
  · rename_i head headed
    split
    · rename_i f decoded
      split
      · exact .inr (.inr (.inl rfl))
      · rename_i verified
        have decodes : Decodes mac n.counted buf f := ⟨⟨head,headed,decoded⟩,fun has => by simpa [has] using verified⟩
        split
        · rename_i whole
          exact .inl ⟨n.counted,f.hdr,f.payload,1,.single f decodes whole,rfl⟩
        · rename_i cut
          rw [receiveFragment_gather mac ops]
          split
          · rename_i partly
            refine .inr (.inl ⟨f,decodes,cut,rfl,?_⟩)
            rintro ⟨taken,complete⟩
            rcases partly with refused | missing
            · exact refused taken
            · have incomplete : (!(n.counted.gather f nowMs).2.ctx.reassembler.complete) = true := missing
              rw [complete] at incomplete
              cases incomplete
          · rename_i done
            have taken : ¬ (n.counted.gather f nowMs).1 ≠ .ok := fun refused => done (.inl refused)
            have complete : ¬ (!(n.counted.gather f nowMs).2.ctx.reassembler.complete) = true := fun missing => done (.inr missing)
            exact .inl ⟨_,_,_,_,.set f decodes cut (Decidable.not_not.mp taken) (by simpa using complete),rfl⟩
    · split
      · exact .inr (.inr (.inr (.inr ⟨_,_,rfl⟩)))
      · exact .inr (.inr (.inr (.inl ⟨_,rfl⟩)))
  · exact .inr (.inr (.inr (.inl ⟨_,rfl⟩)))

-- A frame that hands nothing over queues no more than a refusal, and loses nothing owed.
theorem receive_owes (voices : Voices ops C P) (n : Engine σ) (buf : Bytes) (random : RandomFn) (nowMs : UInt32) :
    (∃ m hdr payload fragments, Hands mac n buf nowMs m hdr payload fragments ∧
      n.receive mac ops buf random nowMs = m.deliver mac ops hdr payload fragments random nowMs) ∨
    Owes mac ops P n (n.receive mac ops buf random nowMs) := by
  rcases receive_outcomes mac ops n buf random nowMs with handed | ⟨f,_,_,received,_⟩ | received | ⟨s,received⟩ | ⟨s,hdr,received⟩
  · exact .inl handed
  · exact .inr (received ▸ Owes.quiet _ _ rfl rfl rfl rfl)
  · exact .inr (received ▸ Owes.quiet _ _ rfl rfl rfl rfl)
  · exact .inr (received ▸ Owes.quiet _ _ rfl rfl rfl rfl)
  · right
    have bumped : Owes mac ops P n (n.counted.bump s) := Owes.quiet _ _ rfl rfl rfl rfl
    exact received ▸ bumped.trans (refuseAuthenticated_keeps mac ops voices _ hdr s).owes

end
end
end LoraRan.Node
