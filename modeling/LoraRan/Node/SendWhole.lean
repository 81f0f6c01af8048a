import LoraRan.Node.Reports
import LoraRan.Protocol.FragmentTrip

namespace LoraRan.Node
open Protocol Library.Staging

-- The frames of one message in index order: one frame, or as many as the chunk cuts it into.
def Message (sender : EncodeCtx) (hdr : Header) (payload : Bytes) (chunk : UInt8) (frames : List Bytes) : Prop :=
  if chunk = 0 ∨ payload.length ≤ chunk.toNat then ∃ bytes, frames = [bytes] ∧ encode hdr payload sender maxFrame = .ok bytes
  else frames.length = fragmentCount payload.length chunk.toNat ∧
    ∀ (i : Nat) (bytes : Bytes), frames[i]? = some bytes →
      encodeFragment hdr payload (UInt8.ofNat i) chunk.toNat sender maxFrame = .ok bytes

section
variable {σ : Type} {mac : Mac}

def Engine.queue (n : Engine σ) (frames : List Bytes) : Engine σ :=
  {n with
    outbox := n.outbox ++ frames
    ctx := {n.ctx with counters := {n.ctx.counters with txFrames := n.ctx.counters.txFrames + UInt32.ofNat frames.length}}}

theorem push_queues (n : Engine σ) (bytes : Bytes) (free : 1 ≤ n.freeSlots) (fits : bytes.length ≤ maxFrame) :
    n.push bytes = n.queue [bytes] := by
  have room : ¬ (n.outbox.length = outboxDepth ∨ outFrameMax < bytes.length) := by
    simp only [Engine.freeSlots,outboxDepth,outFrameMax,maxFrame] at *
    omega
  unfold Engine.push Engine.queue
  rw [if_neg room]
  rfl

theorem queue_queue (n : Engine σ) (first rest : List Bytes) : (n.queue first).queue rest = n.queue (first ++ rest) := by
  have counted : n.ctx.counters.txFrames + UInt32.ofNat first.length + UInt32.ofNat rest.length =
      n.ctx.counters.txFrames + UInt32.ofNat (first ++ rest).length := by
    rw [List.length_append,UInt32.ofNat_add,UInt32.add_assoc]
  simp only [Engine.queue,List.append_assoc,counted]

theorem queue_nil (n : Engine σ) : n.queue [] = n := by
  simp [Engine.queue]

theorem push_freeSlots (n : Engine σ) (bytes : Bytes) (free : 1 ≤ n.freeSlots) (fits : bytes.length ≤ maxFrame) :
    (n.push bytes).freeSlots = n.freeSlots - 1 := by
  rw [push_queues n bytes free fits]
  simp only [Engine.freeSlots,Engine.queue,List.length_append,List.length_singleton]
  omega

theorem fragment_within (length chunk i : Nat) (cut : 0 < chunk) (below : i < fragmentCount length chunk) (some : 0 < length) :
    i * chunk < length := by
  have ceiling : fragmentCount length chunk ≤ (length + chunk - 1) / chunk := by
    unfold fragmentCount
    rw [if_neg (by omega),if_neg (by omega)]
    dsimp only
    split
    · exact Nat.zero_le _
    · exact Nat.le_refl _
  have inside := (Nat.lt_div_iff_mul_lt cut).mp (Nat.lt_of_lt_of_le below ceiling)
  omega

section
variable {hdr : Header} {lead piece : Bytes} {total i : Nat}

theorem setFrag_total (hdr : Header) (small : i < 16) (few : total < 16) :
    (hdr.setFrag (UInt8.ofNat i) (UInt8.ofNat total)).fragTotal.toNat = total := (setFrag_nibbles i small total few).2

theorem setFrag_index (hdr : Header) (small : i < 16) (few : total < 16) :
    (hdr.setFrag (UInt8.ofNat i) (UInt8.ofNat total)).fragIndex.toNat = i := (setFrag_nibbles i small total few).1

-- A set's later pieces are no longer than its first, and of one type with it: what admits the first admits them.
theorem admissible_alike (several : 1 < total) (few : total < 16) (below : i < total) (some : 0 < piece.length)
    (shorter : piece.length ≤ lead.length) (admitted : Admissible (hdr.setFrag (UInt8.ofNat 0) (UInt8.ofNat total)) lead) :
    Admissible (hdr.setFrag (UInt8.ofNat i) (UInt8.ofNat total)) piece ∧ frameHasMac hdr.type piece = frameHasMac hdr.type lead := by
  have many (j : Nat) (small : j < 16) : 1 < (hdr.setFrag (UInt8.ofNat j) (UInt8.ofNat total)).fragTotal := by
    rw [UInt8.lt_iff_toNat_lt,setFrag_total hdr small few]
    exact several
  have cutting : typeIsFragmentable hdr.type = true := admitted.fragmentable (many 0 (by omega))
  have notHex : hdr.type ≠ .hexReq := by
    intro hex
    rw [hex] at cutting
    cases cutting
  have masked : frameHasMac hdr.type piece = frameHasMac hdr.type lead := by
    simp [frameHasMac,notHex]
  have fits : frameLen piece.length (frameHasMac hdr.type piece) ≠ 0 := by
    have leading := (frameLen_pos_iff lead.length (frameHasMac hdr.type lead)).mp admitted.fits
    rw [masked]
    exact (frameLen_pos_iff _ _).mpr (by omega)
  have sized : checkPayloadLen (hdr.setFrag (UInt8.ofNat i) (UInt8.ofNat total)) piece = .ok := by
    have leading := admitted.sized
    unfold checkPayloadLen at leading ⊢
    rw [if_pos (many 0 (by omega))] at leading
    rw [if_pos (many i (by omega)),if_neg]
    split at leading
    · cases leading
    · rename_i within
      simp only [Header.setFrag] at within ⊢
      omega
  refine ⟨⟨admitted.named,?_,?_,fun _ => cutting,admitted.schema,sized,fits⟩,masked⟩
  · intro zero
    have counted := many i (by omega)
    rw [zero] at counted
    cases counted
  · rw [UInt8.lt_iff_toNat_lt,setFrag_total hdr (by omega) few,setFrag_index hdr (by omega) few]
    exact below

theorem macField_some (ctx : EncodeCtx) (present : Bool) (covered other tag : Bytes) (made : macField ctx present covered = some tag) :
    ∃ tag', macField ctx present other = some tag' := by
  unfold macField at made ⊢
  split
  · rename_i due
    rw [if_pos due] at made
    split at made
    · exact ⟨_,rfl⟩
    · cases made
  · exact ⟨_,rfl⟩

theorem encode_alike {sender : EncodeCtx} {cap : Nat} {first : Bytes} (several : 1 < total) (few : total < 16) (below : i < total)
    (some : 0 < piece.length) (shorter : piece.length ≤ lead.length)
    (encoded : encode (hdr.setFrag (UInt8.ofNat 0) (UInt8.ofNat total)) lead sender cap = .ok first) :
    ∃ bytes, encode (hdr.setFrag (UInt8.ofNat i) (UInt8.ofNat total)) piece sender cap = .ok bytes := by
  obtain ⟨admitted,room,tag,made,-⟩ := encode_parts _ _ _ _ _ encoded
  obtain ⟨admissible,masked⟩ := admissible_alike several few below some shorter admitted
  have within : frameLen piece.length (frameHasMac hdr.type piece) ≤ cap := by
    have leading : frameLen lead.length (frameHasMac hdr.type lead) ≠ 0 := admitted.fits
    have fits : frameLen piece.length (frameHasMac hdr.type piece) ≠ 0 := admissible.fits
    have length : frameLen lead.length (frameHasMac hdr.type lead) ≤ cap := room
    rw [frameLen_eq _ _ leading] at length
    rw [frameLen_eq _ _ fits,masked]
    omega
  have tagged := macField_some sender _ _ (writeHeader (hdr.setFrag (UInt8.ofNat i) (UInt8.ofNat total)) ++ piece) tag made
  rw [show frameHasMac (hdr.setFrag (UInt8.ofNat 0) (UInt8.ofNat total)).type lead = frameHasMac hdr.type piece from masked.symm] at tagged
  obtain ⟨tag',made'⟩ := tagged
  exact ⟨_,encode_of_parts _ _ sender cap tag' admissible within made'⟩

end

-- The shape of a set is fixed by its first fragment: where that one encodes, so do the others.
theorem encodeFragment_alike (hdr : Header) (payload : Bytes) (chunk : Nat) (sender : EncodeCtx) (cap : Nat) (first : Bytes) (i : Nat)
    (cut : 0 < chunk) (long : chunk < payload.length) (below : i < fragmentCount payload.length chunk)
    (encoded : encodeFragment hdr payload (UInt8.ofNat 0) chunk sender cap = .ok first) :
    ∃ bytes, encodeFragment hdr payload (UInt8.ofNat i) chunk sender cap = .ok bytes := by
  have used : chunkUsed hdr.type chunk = chunk := if_neg (by omega)
  obtain ⟨whole,fragmentable⟩ := Protocol.encodeFragment_parts hdr payload 0 chunk sender cap first (by omega) encoded
  rw [used] at whole fragmentable
  have spans := fragmentCount_spans payload.length chunk _ rfl (by omega)
  have few : fragmentCount payload.length chunk < 16 := by
    have limit : maxFragments.toNat = 15 := rfl
    omega
  have several : 1 < fragmentCount payload.length chunk := by
    by_contra single
    have most := Nat.mul_le_mul_right chunk (Nat.le_of_not_lt single)
    omega
  have started := fragment_within payload.length chunk i cut below (by omega)
  have piece : (window payload (i * chunk) chunk).length = min chunk (payload.length - i * chunk) := by
    simp [window]
  have lead : (window payload (0 * chunk) chunk).length = chunk := by
    simp only [window,Nat.zero_mul,List.drop_zero,List.length_take]
    omega
  have alike : ∃ bytes, encode (hdr.setFrag (UInt8.ofNat i) (UInt8.ofNat (fragmentCount payload.length chunk)))
      (window payload (i * chunk) chunk) sender cap = .ok bytes := encode_alike several few below (by omega) (by omega) whole
  obtain ⟨bytes,made⟩ := alike
  refine ⟨bytes,?_⟩
  have index : (UInt8.ofNat i).toNat = i := by
    simp only [UInt8.toNat_ofNat']
    omega
  have named : typeIsKnown hdr.type.code = true := (encode_parts _ _ _ _ _ whole).1.named
  unfold encodeFragment
  rw [if_neg (by simpa using named)]
  dsimp only
  rw [if_neg (Nat.ne_of_gt cut),index,if_neg (by omega),if_neg (by omega),if_neg (by simp [fragmentable several])]
  exact made

-- Fragments i, i+1, ... of a set whose every fragment encodes.
theorem sendFragments_queues (mac : Mac) (n : Engine σ) (hdr : Header) (payload : Bytes) (chunk left i : Nat) (free : left ≤ n.freeSlots)
    (encodes : ∀ (j : Nat), j < left → ∃ bytes, encodeFragment hdr payload (UInt8.ofNat (i + j)) chunk
      {mac := some mac,nodeKey := some n.ctx.key} maxFrame = .ok bytes) :
    ∃ frames, n.sendFragments mac hdr payload chunk left i = (true,n.queue frames) ∧ frames.length = left ∧
      ∀ (j : Nat) (bytes : Bytes), frames[j]? = some bytes →
        encodeFragment hdr payload (UInt8.ofNat (i + j)) chunk {mac := some mac,nodeKey := some n.ctx.key} maxFrame = .ok bytes := by
  induction left generalizing n i with
  | zero =>
    refine ⟨[],?_,rfl,fun j bytes here => by cases here⟩
    rw [queue_nil]
    rfl
  | succ left ih =>
    obtain ⟨first,encoded⟩ := encodes 0 (Nat.succ_pos left)
    rw [Nat.add_zero] at encoded
    obtain ⟨total,piece,whole⟩ := Node.encodeFragment_parts _ _ _ _ _ _ _ encoded
    have fits := encode_length _ _ _ _ _ whole
    have pushed := push_queues n first (by omega) fits
    obtain ⟨rest,sent,length,each⟩ := ih (n.push first) (i + 1) (by rw [push_freeSlots n first (by omega) fits]; omega) (by
      intro j below
      obtain ⟨bytes,made⟩ := encodes (j + 1) (by omega)
      refine ⟨bytes,?_⟩
      rw [Nat.add_right_comm i 1 j]
      exact made)
    refine ⟨first :: rest,?_,by rw [List.length_cons,length],?_⟩
    · unfold Engine.sendFragments
      rw [encoded]
      dsimp only
      rw [sent,pushed,queue_queue]
      rfl
    · intro j bytes here
      cases j with
      | zero =>
        cases here
        exact encoded
      | succ j =>
        rw [← Nat.add_assoc,Nat.add_right_comm]
        exact each j bytes here

-- A send queues the whole message, or nothing of it.
theorem send_whole_or_none (mac : Mac) (n : Engine σ) (hdr : Header) (payload : Bytes) (chunk : UInt8) :
    (∃ frames, Message {mac := some mac,nodeKey := some n.ctx.key} hdr payload chunk frames ∧
      n.send mac hdr payload chunk = (true,n.queue frames)) ∨ n.send mac hdr payload chunk = (false,n) := by
  unfold Engine.send Message
  split
  · rename_i single
    split
    · exact .inr rfl
    · rename_i free
      cases encoded : encode hdr payload {mac := some mac,nodeKey := some n.ctx.key} maxFrame with
      | error _ => exact .inr rfl
      | ok bytes =>
        refine .inl ⟨[bytes],⟨bytes,rfl,rfl⟩,?_⟩
        dsimp only
        rw [push_queues n bytes (by omega) (encode_length _ _ _ _ _ encoded)]
  · rename_i several
    dsimp only
    split
    · exact .inr rfl
    · rename_i room
      have cut : 0 < chunk.toNat := by
        have nonzero : chunk.toNat ≠ 0 := fun zero => several (.inl (UInt8.toNat_inj.mp zero))
        omega
      obtain ⟨left,counted⟩ : ∃ left, fragmentCount payload.length chunk.toNat = left + 1 := ⟨_,(Nat.succ_pred (by omega)).symm⟩
      cases encoded : encodeFragment hdr payload (UInt8.ofNat 0) chunk.toNat {mac := some mac,nodeKey := some n.ctx.key} maxFrame with
      | error _ =>
        refine .inr ?_
        rw [counted]
        unfold Engine.sendFragments
        rw [encoded]
      | ok first =>
        obtain ⟨frames,sent,length,each⟩ := sendFragments_queues mac n hdr payload chunk.toNat
          (fragmentCount payload.length chunk.toNat) 0 (by omega) (by
            intro j below
            rw [Nat.zero_add]
            exact encodeFragment_alike hdr payload chunk.toNat _ maxFrame first j cut (by omega) below encoded)
        refine .inl ⟨frames,⟨length,?_⟩,sent⟩
        intro j bytes here
        rw [← Nat.zero_add j]
        exact each j bytes here

end
end LoraRan.Node
