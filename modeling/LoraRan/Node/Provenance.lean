import LoraRan.Node.Acts
import LoraRan.Protocol.FragmentMap
import LoraRan.Protocol.RoundTrip

namespace LoraRan.Node
open Protocol
open Library.LittleEndian (u8At)

-- A frame read off the air and the context it met.
structure Arrival where
  bytes : Bytes
  ctx : Context

-- The receive ladder let the frame through to the engine.
def Accepted (mac : Mac) (a : Arrival) (f : Frame) : Prop :=
  a.ctx.ctxId ≠ 0 ∧ ∃ head, decodeHeader a.bytes a.ctx.headerCtx = (.ok,head) ∧
    decodePayload a.bytes (a.ctx.payloadCtx mac) head = (.ok,f)

-- The tag that follows the payload is the context key's over the header and the payload as received, and the header
-- names the context the frame met.
structure Verified (mac : Mac) (a : Arrival) (f : Frame) : Prop where
  header : f.hdr = readHeader a.bytes
  whole : a.bytes.length = hdrLen + f.payload.length + macLen + crcLen
  payload : (a.bytes.drop hdrLen).take f.payload.length = f.payload
  tag : (a.bytes.drop (hdrLen + f.payload.length)).take macLen =
    mac.hmacSha256Trunc a.ctx.key (a.bytes.take (hdrLen + f.payload.length))
  context : f.hdr.ctxId = a.ctx.ctxId
  checked : a.ctx.ctxId ≠ 0
  flagged : f.macVerified = true

theorem accepted_header (mac : Mac) (a : Arrival) (f : Frame) (accepted : Accepted mac a f) :
    f.hdr = readHeader a.bytes ∧ f.hdr.fragTotal ≠ 0 ∧ f.hdr.fragIndex < f.hdr.fragTotal ∧
      (1 < f.hdr.fragTotal → typeIsFragmentable f.hdr.type = true) := by
  obtain ⟨_,head,headed,decoded⟩ := accepted
  obtain ⟨_,_,_,rfl,_,counted,indexed,_⟩ := decodeHeader_parts _ _ _ headed
  obtain ⟨_,_,_,_,_,_,fragmentable,_,checked⟩ := decodePayload_parts _ _ _ _ decoded
  obtain ⟨_,_,sameHdr,_⟩ := authenticate_parts _ _ _ _ checked
  rw [sameHdr]
  exact ⟨rfl,counted,indexed,fragmentable⟩

theorem accepted_verified (mac : Mac) (a : Arrival) (f : Frame) (accepted : Accepted mac a f)
    (due : frameHasMac f.hdr.type f.payload = true) : Verified mac a f := by
  obtain ⟨isHeader,_,_,_⟩ := accepted_header mac a f accepted
  obtain ⟨nonzero,head,headed,decoded⟩ := accepted
  obtain ⟨long,_,_,rfl,_⟩ := decodeHeader_parts _ _ _ headed
  obtain ⟨present,payloadLen,_,_,boundary,_,_,_,checked⟩ := decodePayload_parts _ _ _ _ decoded
  obtain ⟨sameContext,readClass,sameHdr,samePayload,_,verified⟩ := authenticate_parts _ _ _ _ checked
  obtain ⟨length,typed⟩ := payloadBoundary_length _ _ _ _ long boundary
  dsimp only at sameHdr samePayload sameContext readClass verified typed
  rw [sameHdr,samePayload] at due
  -- A MAC is due, so it is there: by type, or because a write without one was refused.
  have here : present = true := by
    by_cases hex : (readHeader a.bytes).type = .hexReq
    · by_contra missing
      have unsigned := readClass hex (by simp [missing])
      rw [hex] at due
      simp [frameHasMac,typeRequiresMac,unsigned] at due
    · rw [typed hex]
      simpa [frameHasMac,hex] using due
  subst here
  have size : f.payload.length = payloadLen := by
    rw [samePayload]
    simp only [if_pos] at length
    simp
    omega
  obtain ⟨tagged,flagged⟩ := verified _ mac a.ctx.key (if_pos rfl) rfl rfl
  refine ⟨isHeader,by rw [size]; exact length,by rw [size]; exact samePayload.symm,?_,?_,nonzero,flagged⟩
  · rw [size]
    refine (ctEqual_sound _ _ ?_ tagged).symm
    rw [mac.length]
    simp only [if_pos] at length
    simp [macLen,crcLen] at length ⊢
    omega
  · rw [sameHdr]
    exact sameContext nonzero due

-- A delivered payload, cut into the frames that brought it. A single frame is a set of one.
structure Part where
  arrival : Arrival
  frame : Frame

structure MadeOf (arrivals : List Arrival) (d : Delivery) (parts : List Part) (Q : Arrival → Frame → Prop) : Prop where
  payload : d.payload = parts.flatMap fun part => part.frame.payload
  count : parts.length = d.hdr.fragTotal.toNat
  some_part : parts ≠ []
  each : ∀ (i : Nat) (part : Part), parts[i]? = some part → part.arrival ∈ arrivals ∧ Q part.arrival part.frame ∧
    part.frame.hdr.fragIndex.toNat = i ∧ part.frame.hdr.fragTotal = d.hdr.fragTotal ∧ part.frame.setKey = ({hdr := d.hdr} : Frame).setKey

def Assembled (mac : Mac) (arrivals : List Arrival) (d : Delivery) : Prop := ∃ parts, MadeOf arrivals d parts (Accepted mac)

def Authentic (mac : Mac) (arrivals : List Arrival) (d : Delivery) : Prop := ∃ parts, MadeOf arrivals d parts (Verified mac)

theorem authentic_of_assembled (mac : Mac) (arrivals : List Arrival) (d : Delivery) (assembled : Assembled mac arrivals d)
    (due : frameHasMac d.hdr.type d.payload = true) : Authentic mac arrivals d := by
  obtain ⟨parts,made⟩ := assembled
  refine ⟨parts,made.payload,made.count,made.some_part,?_⟩
  intro i part here
  obtain ⟨member,accepted,index,total,key⟩ := made.each i part here
  have typed : part.frame.hdr.type = d.hdr.type := congrArg SetKey.type key
  obtain ⟨_,_,_,fragmentable⟩ := accepted_header mac _ _ accepted
  refine ⟨member,accepted_verified mac _ _ accepted ?_,index,total,key⟩
  by_cases required : typeRequiresMac d.hdr.type = true
  · simp [frameHasMac,typed,required]
  · -- Only HEX_REQ is judged by its payload, and it is never cut.
    have hex : d.hdr.type = .hexReq := by
      by_contra other
      simp [frameHasMac,required,other] at due
    rw [typed,hex] at fragmentable
    have single : parts.length = 1 := by
      have few : ¬ 1 < d.hdr.fragTotal := fun several => Bool.noConfusion (fragmentable (total ▸ several))
      have nonempty := List.length_pos_iff.mpr made.some_part
      rw [UInt8.lt_iff_toNat_lt,← made.count] at few
      change ¬ 1 < parts.length at few
      omega
    obtain ⟨only,rfl⟩ := List.length_eq_one_iff.mp single
    have same : part = only := by
      cases i with
      | zero => exact (Option.some.inj here).symm
      | succ i => cases here
    have payload := made.payload
    simp only [List.flatMap_cons,List.flatMap_nil,List.append_nil] at payload
    rw [same] at typed ⊢
    rw [typed,← payload]
    exact due

-- What the slot holds of the live set came in accepted frames of that set, each at its own index.
def Stored (mac : Mac) (arrivals : List Arrival) (r : Reassembler) : Prop :=
  r.active = true → r.complete = false ∧ r.Windows ∧ ∀ i, r.got i = true → ∃ a ∈ arrivals, ∃ f, Accepted mac a f ∧
    f.setKey = r.key ∧ f.hdr.fragIndex.toNat = i ∧ f.hdr.fragTotal = r.total ∧ r.piece i = f.payload

section
variable {mac : Mac} {arrivals : List Arrival} {a : Arrival} {r : Reassembler} {f : Frame}

theorem Stored.mono {more : List Arrival} (stored : Stored mac arrivals r) (within : arrivals ⊆ more) : Stored mac more r := by
  intro active
  obtain ⟨open_,windows,held⟩ := stored active
  refine ⟨open_,windows,fun i got => ?_⟩
  obtain ⟨b,member,rest⟩ := held i got
  exact ⟨b,within member,rest⟩

theorem Stored.idle (inactive : r.active = false) : Stored mac arrivals r := by
  intro active
  rw [inactive] at active
  cases active

theorem Stored.setTimeoutMs (stored : Stored mac arrivals r) (ms : UInt32) : Stored mac arrivals (r.setTimeoutMs ms) := stored

theorem tick_stored (stored : Stored mac arrivals r) (counters : Counters) (nowMs : UInt32) :
    Stored mac arrivals (r.tick counters nowMs).1 := by
  unfold Reassembler.tick
  split
  · exact Stored.idle rfl
  · exact stored

-- The slot as claimed for a frame: live, and holding pieces of that frame's set only.
theorem claim_stored (stored : Stored mac arrivals r) (counters : Counters) (nowMs : UInt32) :
    Stored mac arrivals (r.claim counters f nowMs).1 ∧ (r.claim counters f nowMs).1.active = true ∧
      (r.claim counters f nowMs).1.complete = false ∧ (r.claim counters f nowMs).1.key = f.setKey ∧
      (r.claim counters f nowMs).1.Windows := by
  rcases claim_cases r counters f nowMs with ⟨active,key,same⟩ | ⟨active,complete,key,empty,_⟩
  · obtain ⟨open_,windows,_⟩ := stored active
    rw [same]
    exact ⟨stored,active,open_,key,windows⟩
  · have absent : ∀ i, (r.claim counters f nowMs).1.got i ≠ true := fun i => by simp [empty i]
    have windows : (r.claim counters f nowMs).1.Windows :=
      ⟨fun i got => absurd got (absent i),fun i _ got => absurd got (absent i)⟩
    exact ⟨fun _ => ⟨complete,windows,fun i got => absurd got (absent i)⟩,active,complete,key,windows⟩

theorem placed_stored {before after : Reassembler} (stored : Stored mac arrivals before) (active : before.active = true)
    (member : a ∈ arrivals) (accepted : Accepted mac a f) (key : before.key = f.setKey) (total : f.hdr.fragTotal = before.total)
    (placed : Placed before after f.hdr.fragIndex.toNat f.payload) : Stored mac arrivals after := by
  obtain ⟨open_,_,held⟩ := stored active
  intro _
  refine ⟨placed.complete.trans open_,placed.windows,fun i got => ?_⟩
  by_cases here : i = f.hdr.fragIndex.toNat
  · subst here
    exact ⟨a,member,f,accepted,key.symm.trans placed.key.symm,rfl,total.trans placed.total.symm,placed.here⟩
  · rw [placed.got,Function.update_of_ne here] at got
    obtain ⟨b,within,g,was,sameKey,index,sameTotal,piece⟩ := held i got
    exact ⟨b,within,g,was,sameKey.trans placed.key.symm,index,sameTotal.trans placed.total.symm,
      (placed.elsewhere i here got).trans piece⟩

theorem assemble_assembled (stored : Stored mac arrivals r) (active : r.active = true) (filled : r.filled = true)
    (key : r.key = f.setKey) (total : f.hdr.fragTotal = r.total) (counted : f.hdr.fragTotal ≠ 0) :
    Assembled mac arrivals ⟨f.hdr,r.assemble.out⟩ := by
  obtain ⟨_,_,held⟩ := stored active
  have each : ∀ i, ∃ part : Part, i < r.total.toNat → part.arrival ∈ arrivals ∧ Accepted mac part.arrival part.frame ∧
      part.frame.hdr.fragIndex.toNat = i ∧ part.frame.hdr.fragTotal = f.hdr.fragTotal ∧ part.frame.setKey = f.setKey ∧
      r.piece i = part.frame.payload := by
    intro i
    by_cases inside : i < r.total.toNat
    · have got : r.got i = true := List.all_eq_true.mp filled i (List.mem_range.mpr inside)
      obtain ⟨b,member,g,accepted,sameKey,index,sameTotal,piece⟩ := held i got
      exact ⟨⟨b,g⟩,fun _ => ⟨member,accepted,index,sameTotal.trans total.symm,sameKey.trans key,piece⟩⟩
    · exact ⟨⟨⟨[],{}⟩,{}⟩,fun within => absurd within inside⟩
  choose part facts using each
  refine ⟨(List.range r.total.toNat).map part,?_,?_,?_,?_⟩
  · rw [List.flatMap_map]
    exact List.flatMap_congr fun i member => (facts i (List.mem_range.mp member)).2.2.2.2.2
  · simp [total]
  · intro empty
    have none : r.total.toNat = 0 := by simpa using empty
    exact counted (UInt8.toNat_inj.mp (by rw [total,none]; rfl))
  · intro i here got
    have inside : i < r.total.toNat := by
      by_contra outside
      rw [List.getElem?_eq_none (by simpa using outside)] at got
      cases got
    have same : here = part i := by simpa [inside] using got.symm
    obtain ⟨member,accepted,index,sameTotal,sameKey,_⟩ := facts i inside
    rw [same]
    exact ⟨member,accepted,index,sameTotal,sameKey⟩

-- One fragment: the slot stays accounted for, and a set it completes is made of accepted frames.
theorem accept_stored (stored : Stored mac arrivals r) (member : a ∈ arrivals) (accepted : Accepted mac a f)
    (longer : f.hdr.fragTotal ≠ 1) (counters : Counters) (nowMs : UInt32) :
    Stored mac arrivals (r.accept counters f nowMs).2.1 ∧
      ((r.accept counters f nowMs).1 = .ok → (r.accept counters f nowMs).2.1.complete = true →
        Assembled mac arrivals ⟨f.hdr,(r.accept counters f nowMs).2.1.out⟩) := by
  have ticked := tick_stored stored counters nowMs
  rcases accept_fragment_cases r counters f nowMs longer with ⟨refused,kept | reset⟩ | ⟨_,counted,claimed,placing⟩
  · rw [kept]
    exact ⟨stored,fun ok => absurd ok refused⟩
  · rw [reset]
    exact ⟨ticked,fun ok => absurd ok refused⟩
  · rw [placing]
    obtain ⟨kept,active,complete,key,windows⟩ := claim_stored (f := f) ticked counted nowMs
    rcases place_cases _ claimed f windows with ⟨refused,dropped⟩ | ⟨_,total,placed,here,result⟩
    · rw [dropped]
      exact ⟨Stored.idle rfl,fun ok => absurd ok refused⟩
    · have nowStored := placed_stored kept active member accepted key total here
      rcases result with partial_ | ⟨filled,whole⟩
      · rw [partial_]
        refine ⟨nowStored,fun _ done => ?_⟩
        rw [here.complete,complete] at done
        cases done
      · rw [whole]
        refine ⟨Stored.idle rfl,fun _ _ => ?_⟩
        exact assemble_assembled nowStored (here.active.trans active) filled (here.key.trans key) (total.trans here.total.symm)
          (accepted_header mac a f accepted).2.1

end
section
variable {σ : Type} {mac : Mac} {ops : Application σ} {arrivals : List Arrival} {a : Arrival}

-- A payload delivered at the arrival of `a`, its last frame.
structure DeliveredAt (mac : Mac) (arrivals : List Arrival) (a : Arrival) (d : Delivery) : Prop where
  assembled : Assembled mac arrivals d
  last : ∃ f, Accepted mac a f ∧ d.hdr = f.hdr ∧ (f.hdr.fragTotal = 1 → d.payload = f.payload)

-- What one frame can do to a node: every call is made for a payload of accepted frames, and the gate as the frame met
-- it permits the call.
structure Received (mac : Mac) (ops : Application σ) (arrivals : List Arrival) (a : Arrival) (n n' : Engine σ) : Prop where
  id : n'.ctx.id = n.ctx.id
  key : n'.ctx.key = n.ctx.key
  context : n.ctx.ctxId ≠ 0 → n'.ctx.ctxId ≠ 0
  stored : Stored mac arrivals n'.ctx.reassembler
  idle : n'.serving = none
  calls : ∃ made, n'.calls = made ++ n.calls ∧ ∀ c ∈ made, ∃ d, c.serving = some d ∧ DeliveredAt mac arrivals a d ∧
    Permitted n.ctx.gate d c.kind
  app : AppActs ops (fun hex => ∃ d, DeliveredAt mac arrivals a d ∧ Permitted n.ctx.gate d (.hexForward hex)) n.app n'.app

-- The engine as the ladder hands it on: only its counters and its slot have moved.
structure Alert (n m : Engine σ) : Prop where
  id : m.ctx.id = n.ctx.id
  key : m.ctx.key = n.ctx.key
  ctxId : m.ctx.ctxId = n.ctx.ctxId
  gate : m.ctx.gate = n.ctx.gate
  serving : m.serving = n.serving
  calls : m.calls = n.calls
  app : m.app = n.app

theorem Alert.trans {n m m' : Engine σ} (first : Alert n m) (second : Alert m m') : Alert n m' :=
  ⟨second.id.trans first.id,second.key.trans first.key,second.ctxId.trans first.ctxId,second.gate.trans first.gate,
    second.serving.trans first.serving,second.calls.trans first.calls,second.app.trans first.app⟩

theorem received_quiet (n m n' : Engine σ) (alert : Alert n m) (idle : n.serving = none) (stored : Stored mac arrivals m.ctx.reassembler)
    (acts : Acts ops (fun _ => False) m n') : Received mac ops arrivals a n n' := by
  obtain ⟨ms,reassembler⟩ := acts.reassembler
  obtain ⟨made,calls,none⟩ := acts.calls
  refine ⟨acts.id.trans alert.id,acts.key.trans alert.key,fun nonzero => acts.context (alert.ctxId ▸ nonzero),?_,
    (acts.serving.trans alert.serving).trans idle,⟨made,alert.calls ▸ calls,fun c member => (none c member).2.elim⟩,?_⟩
  · rw [reassembler]
    exact stored
  · rw [← alert.app]
    exact acts.app.weaken fun _ never => never.elim

theorem received_deliver (n m : Engine σ) (alert : Alert n m) (stored : Stored mac arrivals m.ctx.reassembler)
    (hdr : Header) (payload : Bytes) (delivery : DeliveredAt mac arrivals a ⟨hdr,payload⟩) (fragments : UInt8) (random : RandomFn)
    (nowMs : UInt32) : Received mac ops arrivals a n (m.deliver mac ops hdr payload fragments random nowMs) := by
  obtain ⟨served,acts,delivered⟩ := deliver_acts mac ops m hdr payload fragments random nowMs
  obtain ⟨ms,reassembler⟩ := acts.reassembler
  obtain ⟨made,calls,fit⟩ := acts.calls
  rw [delivered]
  refine ⟨acts.id.trans alert.id,acts.key.trans alert.key,fun nonzero => acts.context (alert.ctxId ▸ nonzero),?_,rfl,
    ⟨made,alert.calls ▸ calls,?_⟩,?_⟩
  · rw [reassembler]
    exact stored
  · intro c member
    obtain ⟨serving,permitted⟩ := fit c member
    exact ⟨_,serving,delivery,alert.gate ▸ permitted⟩
  · rw [← alert.app]
    exact acts.app.weaken fun hex permitted => ⟨_,delivery,alert.gate ▸ permitted⟩

theorem receiveFragment_received (n m : Engine σ) (alert : Alert n m) (idle : n.serving = none)
    (stored : Stored mac arrivals m.ctx.reassembler) (member : a ∈ arrivals) (f : Frame) (accepted : Accepted mac a f)
    (longer : f.hdr.fragTotal ≠ 1) (random : RandomFn) (nowMs : UInt32) :
    Received mac ops arrivals a n (m.receiveFragment mac ops f random nowMs) := by
  obtain ⟨kept,whole⟩ := accept_stored stored member accepted longer m.ctx.counters nowMs
  unfold Engine.receiveFragment
  dsimp only
  generalize UInt8.ofNat f.payload.length = width
  generalize (if (!m.ctx.reassembler.active) = true then (0 : UInt8) else m.ctx.rxChunk) = chunk
  generalize (if (m.ctx.reassembler.accept m.ctx.counters f nowMs).1 = .ok ∧ chunk.toNat < f.payload.length then width else chunk) = chunk'
  split
  · refine received_quiet n _ _ ?_ idle kept (Acts.refl _)
    exact Alert.trans alert ⟨rfl,rfl,rfl,rfl,rfl,rfl,rfl⟩
  · rename_i completed
    simp only [not_or,not_not,Bool.not_eq_true',Bool.not_eq_false] at completed
    refine received_deliver n _ ?_ ?_ _ _ ⟨whole completed.1 completed.2,f,accepted,rfl,fun single => absurd single longer⟩ _ _ _
    · exact Alert.trans alert ⟨rfl,rfl,rfl,rfl,rfl,rfl,rfl⟩
    · exact kept

theorem single_assembled (member : a ∈ arrivals) (f : Frame) (accepted : Accepted mac a f) (single : f.hdr.fragTotal = 1) :
    Assembled mac arrivals ⟨f.hdr,f.payload⟩ := by
  refine ⟨[⟨a,f⟩],by simp,by simp [single],by simp,?_⟩
  intro i part here
  obtain ⟨rfl,rfl⟩ : i = 0 ∧ part = ⟨a,f⟩ := by
    cases i with
    | zero => exact ⟨rfl,(Option.some.inj here).symm⟩
    | succ i => cases here
  have indexed := (accepted_header mac a f accepted).2.2.1
  rw [single,UInt8.lt_iff_toNat_lt] at indexed
  exact ⟨member,accepted,Nat.lt_one_iff.mp indexed,rfl,rfl⟩

-- Any bytes at all.
theorem receive_received (n : Engine σ) (buf : Bytes) (random : RandomFn) (nowMs : UInt32) (idle : n.serving = none)
    (nonzero : n.ctx.ctxId ≠ 0) (stored : Stored mac arrivals n.ctx.reassembler) (member : ⟨buf,n.ctx⟩ ∈ arrivals) :
    Received mac ops arrivals ⟨buf,n.ctx⟩ n (n.receive mac ops buf random nowMs) := by
  unfold Engine.receive
  dsimp only
  split
  · rename_i head headed
    split
    · rename_i f decoded
      have accepted : Accepted mac ⟨buf,n.ctx⟩ f := ⟨nonzero,head,headed,decoded⟩
      split
      · exact received_quiet n _ _ ⟨rfl,rfl,rfl,rfl,rfl,rfl,rfl⟩ idle stored (Acts.quiet ⟨rfl,rfl,rfl,rfl,rfl,rfl,rfl⟩)
      · split
        · rename_i single
          refine received_deliver n _ ?_ ?_ _ _ ⟨single_assembled member f accepted single,f,accepted,rfl,fun _ => rfl⟩ _ _ _
          · exact ⟨rfl,rfl,rfl,rfl,rfl,rfl,rfl⟩
          · exact stored
        · rename_i longer
          refine receiveFragment_received n _ ?_ idle ?_ member f accepted longer random nowMs
          · exact ⟨rfl,rfl,rfl,rfl,rfl,rfl,rfl⟩
          · exact stored
    · split
      · exact received_quiet n n _ ⟨rfl,rfl,rfl,rfl,rfl,rfl,rfl⟩ idle stored (Acts.after _ (refuseAuthenticated_acts mac ops _ _ _) ⟨rfl,rfl,rfl,rfl,rfl,rfl,rfl⟩)
      · exact received_quiet n n _ ⟨rfl,rfl,rfl,rfl,rfl,rfl,rfl⟩ idle stored (Acts.quiet ⟨rfl,rfl,rfl,rfl,rfl,rfl,rfl⟩)
  · exact received_quiet n n _ ⟨rfl,rfl,rfl,rfl,rfl,rfl,rfl⟩ idle stored (Acts.quiet ⟨rfl,rfl,rfl,rfl,rfl,rfl,rfl⟩)

end
end LoraRan.Node
