import LoraRan.Bridge.PeerIsolation
import LoraRan.Protocol.ChunkRule

namespace LoraRan.Bridge
open Protocol Library.Occurrence

-- A fragment past stage 9a, with the slot chosen for it and the ladder as the choice left it.
structure Routed where
  slot : Fin reassemblySlots
  ladder : RxLadder
  frame : Frame

def RxLadder.routed (l : RxLadder) (buf : Bytes) (nowMs : UInt32) : Option Routed :=
  let l := l.offered buf
  let (st,f) := decodeHeader buf ladderCtx
  if st ≠ .ok then none
  else
    let (st,f) := decodePayload buf {ladderCtx with mac := l.mac,nodeKey := l.keyFor f.hdr.src} f
    if st ≠ .ok then none
    else if frameHasMac f.hdr.type f.payload ∧ !f.macVerified then none
    else if !l.registered f.hdr.src then none
    else if f.hdr.fragTotal = 1 then none
    else
      let (i,l) := RxLadder.slotFor {l with last := .ok} f.hdr.src nowMs
      some ⟨i,l,f⟩

def Routed.held (r : Routed) : Slot := r.ladder.slots r.slot

-- The slot's part of the ladder, with what its set is made of.
def Routed.gathering (r : Routed) (sets : Fin reassemblySlots → List Frame) : Gathering :=
  {slot := r.held.reassembler,counters := r.ladder.counters,accepted := sets r.slot}

-- accept() starts the slot's chunk afresh for this fragment.
def Routed.resets (r : Routed) : Bool := !r.held.reassembler.active || decide (r.held.reassembler.key.seq ≠ r.frame.hdr.seq)

theorem decoded_passable (buf : Bytes) (ctx ctx' : DecodeCtx) (head f : Frame) (headed : decodeHeader buf ctx = (.ok,head))
    (decoded : decodePayload buf ctx' head = (.ok,f)) (longer : f.hdr.fragTotal ≠ 1)
    (verified : frameHasMac f.hdr.type f.payload = true → f.macVerified = true) : Passable f := by
  obtain ⟨_,_,_,read,_,some_,below,_⟩ := decodeHeader_parts buf ctx head headed
  obtain ⟨_,_,_,_,_,_,many,_,accepted⟩ := decodePayload_parts buf ctx' head f decoded
  obtain ⟨_,_,hdr,_⟩ := authenticate_parts _ _ _ _ accepted
  have own : f.hdr = readHeader buf := by rw [hdr,read]
  rw [read] at many
  refine ⟨own ▸ some_,fragTotal_le f.hdr,own ▸ below,longer,?_,verified⟩
  rw [own] at longer ⊢
  apply many
  have zero : (readHeader buf).fragTotal.toNat ≠ 0 := fun equal => some_ (UInt8.toNat_inj.mp equal)
  have one : (readHeader buf).fragTotal.toNat ≠ 1 := fun equal => longer (UInt8.toNat_inj.mp equal)
  have wide : 1 < (readHeader buf).fragTotal.toNat := by omega
  exact UInt8.lt_iff_toNat_lt.mpr wide

theorem slotFor_slots (l : RxLadder) (src : NodeId) (nowMs : UInt32) (i : Fin reassemblySlots) (l' : RxLadder)
    (chosen : l.slotFor src nowMs = (i,l')) : (∀ j, j ≠ i → l'.slots j = l.slots j) ∧
      (((l'.slots i).reassembler = (l.slots i).reassembler ∧ (l'.slots i).chunk = (l.slots i).chunk) ∨
        (l'.slots i).reassembler = (l.slots i).reassembler.reset.forgetCompleted) := by
  have taken : ∀ s, l'.slots = Function.update l.slots i s → (∀ j, j ≠ i → l'.slots j = l.slots j) ∧ l'.slots i = s := by
    intro s slots
    rw [slots]
    exact ⟨fun j apart => Function.update_of_ne apart _ _,Function.update_self ..⟩
  unfold RxLadder.slotFor at chosen
  split at chosen
  · cases chosen
    obtain ⟨others,own⟩ := taken _ rfl
    exact ⟨others,.inl (by rw [own]; exact ⟨rfl,rfl⟩)⟩
  · dsimp only at chosen
    split at chosen
    all_goals
      cases chosen
      obtain ⟨others,own⟩ := taken _ rfl
      exact ⟨others,.inr (by rw [own]; rfl)⟩

-- A frame goes to reassembly in the slot routed to it, or leaves every slot alone.
theorem accept_routed (l : RxLadder) (buf : Bytes) (nowMs : UInt32) :
    (∃ r, l.routed buf nowMs = some r ∧ l.accept buf nowMs = r.ladder.reassemble r.slot r.frame nowMs ∧ Passable r.frame ∧
      ∃ before : RxLadder, before.slots = l.slots ∧ before.slotFor r.frame.hdr.src nowMs = (r.slot,r.ladder)) ∨
    (l.routed buf nowMs = none ∧ (l.accept buf nowMs).2.slots = l.slots ∧ ∀ d, (l.accept buf nowMs).1 = some d → d.fragments = 1) := by
  obtain ⟨slots,_⟩ := offered_parts l buf
  have nothing : ∀ d : RxDelivery, (none : Option RxDelivery) = some d → d.fragments = 1 := by
    intro d delivered
    cases delivered
  unfold RxLadder.routed RxLadder.accept
  dsimp only
  split
  · exact .inr ⟨rfl,slots,nothing⟩
  · rename_i headed
    split
    · exact .inr ⟨rfl,slots,nothing⟩
    · rename_i decoded
      split
      · exact .inr ⟨rfl,slots,nothing⟩
      · rename_i verified
        split
        · exact .inr ⟨rfl,slots,nothing⟩
        · unfold RxLadder.admitted
          dsimp only
          split
          · refine .inr ⟨rfl,slots,?_⟩
            intro d delivered
            cases delivered
            rfl
          · rename_i longer
            refine .inl ⟨_,rfl,rfl,?_,{l.offered buf with last := .ok},slots,rfl⟩
            refine decoded_passable buf ladderCtx _ _ _ (Prod.ext (not_not.mp headed) rfl) (Prod.ext (not_not.mp decoded) rfl) longer ?_
            intro has
            by_contra unverified
            exact verified ⟨has,by rw [Bool.not_eq_true] at unverified; rw [unverified]; rfl⟩

-- The ladder over a run, with the fragments that made up each slot's set.
structure LadderRun where
  ladder : RxLadder
  sets : Fin reassemblySlots → List Frame := fun _ => []

def LadderRun.sorted (s : LadderRun) : Heard → Fin reassemblySlots → List Frame
  | .tick _ => s.sets
  | .frame buf nowMs =>
      match s.ladder.routed buf nowMs with
      | none => s.sets
      | some r => Function.update s.sets r.slot ((r.gathering s.sets).acceptedAfter r.frame nowMs)

def LadderRun.hear (s : LadderRun) (h : Heard) : LadderRun := {ladder := (s.ladder.hear h).2,sets := s.sorted h}

def ladderRun (v : Receiver) (heard : List Heard) : LadderRun := heard.foldl LadderRun.hear {ladder := RxLadder.opened v}

-- The chunk kept in the slot is not left over for this fragment.
def LadderRun.Renewed (s : LadderRun) : Heard → Prop
  | .tick _ => True
  | .frame buf nowMs => ∀ r, s.ladder.routed buf nowMs = some r → Renews (r.gathering s.sets) r.held.chunk r.resets r.frame nowMs

-- A set of several fragments is delivered whole, with its own chunk.
def LadderRun.Truthful (s : LadderRun) : Heard → Prop
  | .tick _ => True
  | .frame buf nowMs => ∀ d, (s.ladder.accept buf nowMs).1 = some d → d.fragments ≠ 1 →
      ∃ r, s.ladder.routed buf nowMs = some r ∧ (r.gathering s.sets).Finishes r.frame nowMs ∧
        d.payload = (r.gathering s.sets).assembled r.frame nowMs ∧ d.fragChunk.toNat = longest ((r.gathering s.sets).setOf r.frame nowMs)

def LadderRun.Fits (s : LadderRun) : Prop := ∀ i, Cutting (s.ladder.slots i).reassembler (s.sets i) (s.ladder.slots i).chunk

theorem Routed.joined_kept (r : Routed) (sets : Fin reassemblySlots → List Frame) (nowMs : UInt32)
    (joins : (r.gathering sets).joins r.frame nowMs = true) : r.resets = false := by
  obtain ⟨same,live⟩ := joins_live _ _ nowMs joins
  unfold Gathering.joins at joins
  dsimp only at joins
  rw [same] at joins
  obtain ⟨_,own⟩ := Bool.and_eq_true_iff.mp joins
  have active : r.held.reassembler.active = true := live
  have key : r.frame.setKey = r.held.reassembler.key := eq_of_beq own
  unfold Routed.resets
  rw [active,← key]
  exact decide_eq_false (fun other => other rfl)

theorem opened_fits (v : Receiver) : LadderRun.Fits {ladder := RxLadder.opened v} :=
  fun _ => cutting_idle ((reset_tidy {}).of_same rfl rfl rfl rfl rfl) rfl

-- What a fragment does to its slot, and what it delivers.
theorem reassembled (r : Routed) (nowMs : UInt32) :
    (r.ladder.reassemble r.slot r.frame nowMs).2.slots = Function.update r.ladder.slots r.slot {r.held with
      reassembler := (r.held.reassembler.accept r.ladder.counters r.frame nowMs).2.1
      chunk := widen (if r.resets then 0 else r.held.chunk) (r.held.reassembler.accept r.ladder.counters r.frame nowMs).1 r.frame} ∧
    ∀ d, (r.ladder.reassemble r.slot r.frame nowMs).1 = some d → (r.held.reassembler.accept r.ladder.counters r.frame nowMs).1 = .ok ∧
      (r.held.reassembler.accept r.ladder.counters r.frame nowMs).2.1.complete = true ∧
      d.payload = (r.held.reassembler.accept r.ladder.counters r.frame nowMs).2.1.out ∧
      d.fragChunk = widen (if r.resets then 0 else r.held.chunk) .ok r.frame := by
  have fresh : (if (!r.held.reassembler.active) = true ∨ r.held.reassembler.key.seq ≠ r.frame.hdr.seq then 0 else r.held.chunk) =
      if r.resets then 0 else r.held.chunk := by
    unfold Routed.resets
    simp only [Bool.or_eq_true,decide_eq_true_eq]
  unfold RxLadder.reassemble widen
  rw [← fresh]
  unfold Routed.held
  dsimp only
  split
  · refine ⟨rfl,?_⟩
    intro d delivered
    cases delivered
  · rename_i done
    obtain ⟨taken,complete⟩ := not_or.mp done
    refine ⟨rfl,?_⟩
    intro d delivered
    cases delivered
    have ok := not_not.mp taken
    refine ⟨ok,by simpa using complete,rfl,?_⟩
    rw [ok]

-- The slot a fragment is routed to holds its set, or nothing; the others are as they were.
theorem routed_fits (s : LadderRun) (fits : s.Fits) (before : RxLadder) (same : before.slots = s.ladder.slots) (r : Routed) (nowMs : UInt32)
    (chosen : before.slotFor r.frame.hdr.src nowMs = (r.slot,r.ladder)) :
    Cutting r.held.reassembler (s.sets r.slot) r.held.chunk ∧ ∀ j, j ≠ r.slot → r.ladder.slots j = s.ladder.slots j := by
  obtain ⟨others,own⟩ := slotFor_slots before r.frame.hdr.src nowMs r.slot r.ladder chosen
  rw [same] at others own
  refine ⟨?_,others⟩
  unfold Routed.held
  rcases own with ⟨kept,chunk⟩ | cleared
  · rw [kept,chunk]
    exact fits r.slot
  · rw [cleared]
    exact cutting_idle ((reset_tidy _).of_same rfl rfl rfl rfl rfl) rfl

theorem hear_fits (s : LadderRun) (fits : s.Fits) (h : Heard) (renewed : s.Renewed h) : (s.hear h).Fits ∧ s.Truthful h := by
  cases h with
  | tick nowMs =>
    refine ⟨?_,trivial⟩
    obtain ⟨slots,_⟩ := tick_slots s.ladder nowMs 0
    intro i
    change Cutting ((s.ladder.tick nowMs 0).2.2.slots i).reassembler (s.sets i) ((s.ladder.tick nowMs 0).2.2.slots i).chunk
    rw [slots i]
    unfold Slot.ticked
    split
    · exact cutting_tick (fits i) {} nowMs
    · exact fits i
  | frame buf nowMs =>
    rcases accept_routed s.ladder buf nowMs with ⟨r,routed,accepted,passable,before,same,chosen⟩ | ⟨unrouted,slots,single⟩
    · obtain ⟨own,others⟩ := routed_fits s fits before same r nowMs chosen
      obtain ⟨slots,delivers⟩ := reassembled r nowMs
      have renews := renewed r routed
      have kept := r.joined_kept s.sets nowMs
      have next := cutting_accept own r.ladder.counters r.resets r.frame nowMs passable kept renews
      constructor
      · intro i
        change Cutting ((s.ladder.accept buf nowMs).2.slots i).reassembler (s.sorted (.frame buf nowMs) i)
          ((s.ladder.accept buf nowMs).2.slots i).chunk
        have sorted : s.sorted (.frame buf nowMs) =
            Function.update s.sets r.slot ((r.gathering s.sets).acceptedAfter r.frame nowMs) := by
          simp only [LadderRun.sorted,routed]
        rw [accepted,slots,sorted]
        by_cases here : i = r.slot
        · rw [here,Function.update_self,Function.update_self]
          exact next
        · rw [Function.update_of_ne here,Function.update_of_ne here,others i here]
          exact fits i
      · intro d delivered _
        rw [accepted] at delivered
        obtain ⟨taken,complete,payload,chunk⟩ := delivers d delivered
        obtain ⟨out,finishes,own_⟩ := cutting_delivered own r.ladder.counters r.resets r.frame nowMs passable kept renews taken complete
        refine ⟨r,routed,finishes,payload.trans out,?_⟩
        rw [chunk]
        exact own_
    · constructor
      · intro i
        change Cutting ((s.ladder.accept buf nowMs).2.slots i).reassembler (s.sorted (.frame buf nowMs) i)
          ((s.ladder.accept buf nowMs).2.slots i).chunk
        have sorted : s.sorted (.frame buf nowMs) = s.sets := by simp only [LadderRun.sorted,unrouted]
        rw [slots,sorted]
        exact fits i
      · intro d delivered several
        exact absurd (single d delivered) several

theorem ladderRun_snoc (v : Receiver) (pre : List Heard) (h : Heard) : ladderRun v (pre ++ [h]) = (ladderRun v pre).hear h := by
  unfold ladderRun
  rw [List.foldl_append]
  rfl

theorem ladderRun_fits (v : Receiver) (heard : List Heard) (renewed : Always (fun pre h => (ladderRun v pre).Renewed h) heard) :
    (ladderRun v heard).Fits ∧ Always (fun pre h => (ladderRun v pre).Truthful h) heard := by
  induction heard using List.reverseRecOn with
  | nil => exact ⟨opened_fits v,always_nil⟩
  | append_singleton pre h ih =>
    obtain ⟨before,last⟩ := (always_snoc pre h).mp renewed
    obtain ⟨fits,truthful⟩ := ih before
    obtain ⟨next,told⟩ := hear_fits (ladderRun v pre) fits h last
    rw [ladderRun_snoc]
    exact ⟨next,(always_snoc pre h).mpr ⟨truthful,told⟩⟩

end LoraRan.Bridge
