import LoraRan.Bridge.NoSilentDiscard
import LoraRan.Library.StepSystem
import Mathlib.Data.Finset.Card
import Mathlib.Data.Fintype.Basic
import Mathlib.Data.Fintype.Card

namespace LoraRan.Bridge
open Protocol Library.StepSystem
open Library.CheckedReads (memoryOf_inside)

-- What the ladder is meant to be: a reassembler, and the chunk of its set, for each peer there is.
abbrev Peers := NodeId → Reassembler × UInt8

inductive Heard where
  | frame (buf : Bytes) (nowMs : UInt32)
  | tick (nowMs : UInt32)

structure Receiver where
  mac : Option Mac
  keys : PeerKeys
  timeoutMs : UInt32

def Receiver.fresh (v : Receiver) : Reassembler × UInt8 := ({timeoutMs := v.timeoutMs},0)

-- Counters are left behind: nothing that is delivered depends on them.
def fragmentStep (s : Reassembler × UInt8) (f : Frame) (nowMs : UInt32) : Option RxDelivery × (Reassembler × UInt8) :=
  let chunk := if !s.1.active ∨ s.1.key.seq ≠ f.hdr.seq then 0 else s.2
  let (st,reassembler,_) := s.1.accept {} f nowMs
  let chunk := if st = .ok ∧ chunk.toNat < f.payload.length then UInt8.ofNat f.payload.length else chunk
  if st ≠ .ok ∨ !reassembler.complete then (none,(reassembler,chunk))
  else (some ⟨f.hdr,reassembler.out,f.hdr.fragTotal,f.macVerified,chunk⟩,(reassembler,chunk))

-- The frame that passes stages 2 to 9a.
def Receiver.passed (v : Receiver) (buf : Bytes) : Option Frame :=
  let (st,f) := decodeHeader buf ladderCtx
  if st ≠ .ok then none
  else
    let (st,f) := decodePayload buf {ladderCtx with mac := v.mac,nodeKey := v.keys.keyFor f.hdr.src} f
    if st ≠ .ok then none
    else if frameHasMac f.hdr.type f.payload ∧ !f.macVerified then none
    else if !v.keys.isRegistered f.hdr.src then none
    else some f

def Receiver.hear (v : Receiver) (p : Peers) : Heard → Option RxDelivery × Peers
  | .frame buf nowMs =>
      match v.passed buf with
      | none => (none,p)
      | some f =>
          if f.hdr.fragTotal = 1 then (some ⟨f.hdr,f.payload,1,f.macVerified,0⟩,p)
          else ((fragmentStep (p f.hdr.src) f nowMs).1,Function.update p f.hdr.src (fragmentStep (p f.hdr.src) f nowMs).2)
  | .tick nowMs => (none,fun src => (((p src).1.tick {} nowMs).1,(p src).2))

def RxLadder.hear (l : RxLadder) : Heard → Option RxDelivery × RxLadder
  | .frame buf nowMs => l.accept buf nowMs
  | .tick nowMs => (none,(l.tick nowMs 0).2.2)

-- Slots are taken by registered peers, one each; a slot never taken is as it was built.
structure Shares (v : Receiver) (l : RxLadder) (p : Peers) : Prop where
  mac : l.mac = v.mac
  keys : l.keys = some v.keys
  registered : ∀ i, (l.slots i).used = true → v.keys.isRegistered (l.slots i).src = true
  distinct : ∀ i j, (l.slots i).used = true → (l.slots j).used = true → (l.slots i).src = (l.slots j).src → i = j
  untouched : ∀ i, (l.slots i).used = false → ((l.slots i).reassembler,(l.slots i).chunk) = v.fresh
  taken : ∀ i, (l.slots i).used = true → p (l.slots i).src = ((l.slots i).reassembler,(l.slots i).chunk)
  absent : ∀ src, (∀ i, (l.slots i).used = true → (l.slots i).src ≠ src) → p src = v.fresh

section
variable (r : Reassembler) (c d : Counters) (f : Frame) (nowMs : UInt32)

theorem tick_uncounted : (r.tick c nowMs).1 = (r.tick d nowMs).1 := by
  unfold Reassembler.tick
  split <;> rfl

theorem claim_uncounted : (r.claim c f nowMs).1 = (r.claim d f nowMs).1 := by
  unfold Reassembler.claim
  dsimp only
  generalize (if r.complete = true ∧ (!r.active) = true then r.reset else r) = freed
  split
  · split <;> rfl
  · rfl

theorem place_uncounted : (r.place c f).1 = (r.place d f).1 ∧ (r.place c f).2.1 = (r.place d f).2.1 := by
  unfold Reassembler.place Reassembler.overflow
  dsimp only
  split; · exact ⟨rfl,rfl⟩
  split; · exact ⟨rfl,rfl⟩
  split; · exact ⟨rfl,rfl⟩
  split; · exact ⟨rfl,rfl⟩
  exact ⟨rfl,rfl⟩

-- The counters record what a slot does and never decide it.
theorem accept_uncounted : (r.accept c f nowMs).1 = (r.accept d f nowMs).1 ∧ (r.accept c f nowMs).2.1 = (r.accept d f nowMs).2.1 := by
  unfold Reassembler.accept Reassembler.acceptSingle
  dsimp only
  rw [tick_uncounted r c d nowMs]
  split; · exact ⟨rfl,rfl⟩
  split; · exact ⟨rfl,rfl⟩
  split
  · split <;> exact ⟨rfl,rfl⟩
  · split; · exact ⟨rfl,rfl⟩
    split; · exact ⟨rfl,rfl⟩
    split; · exact ⟨rfl,rfl⟩
    rw [claim_uncounted _ (r.tick c nowMs).2 (r.tick d nowMs).2 f nowMs]
    exact place_uncounted _ _ _ f

end

theorem passOver_free (slots : Fin reassemblySlots → Slot) (nowMs : UInt32) (c : Candidates) (i : Fin reassemblySlots) :
    (passOver slots nowMs c i).free = if (slots i).used then c.free else if c.free.isNone then some i else c.free := by
  unfold passOver
  cases (slots i).used with
  | false =>
      cases free : c.free with
      | none => rfl
      | some j => exact free
  | true =>
      rw [if_neg (by decide),if_pos rfl]
      split
      · dsimp only
        split <;> rfl
      · dsimp only
        split <;> rfl

-- A search that ends without the peer's own slot has seen every slot, and kept the first free one.
theorem searchSlot_rest (slots : Fin reassemblySlots → Slot) (src : NodeId) (nowMs : UInt32) (order : List (Fin reassemblySlots))
    (before after : Candidates) (sofar : ∀ i, before.free = some i → (slots i).used = false)
    (ended : searchSlot slots src nowMs order before = .inr after) :
    (∀ i ∈ order, (slots i).used = true → (slots i).src ≠ src) ∧ (∀ i, after.free = some i → (slots i).used = false) ∧
      (after.free = none → before.free = none ∧ ∀ i ∈ order, (slots i).used = true) := by
  induction order generalizing before with
  | nil =>
      cases ended
      exact ⟨by simp,sofar,fun none => ⟨none,by simp⟩⟩
  | cons j rest ih =>
      unfold searchSlot at ended
      split at ended
      · cases ended
      · rename_i other
        have next : (∀ i, (passOver slots nowMs before j).free = some i → (slots i).used = false) ∧
            ((passOver slots nowMs before j).free = none → before.free = none ∧ (slots j).used = true) := by
          rw [passOver_free]
          cases used : (slots j).used with
          | true => exact ⟨sofar,fun none => ⟨none,rfl⟩⟩
          | false =>
              cases free : before.free with
              | none =>
                  refine ⟨?_,by simp⟩
                  intro i first
                  obtain rfl : j = i := by simpa using first
                  exact used
              | some i => exact ⟨by simpa [free] using sofar i free,by simp⟩
        obtain ⟨kept,none⟩ := next
        obtain ⟨own,first,full⟩ := ih _ kept ended
        refine ⟨?_,first,?_⟩
        · intro i member used
          rcases List.mem_cons.mp member with rfl | later
          · exact fun same => other ⟨used,same⟩
          · exact own i later used
        · intro missing
          obtain ⟨before',all⟩ := full missing
          obtain ⟨start,used⟩ := none before'
          refine ⟨start,?_⟩
          intro i member
          rcases List.mem_cons.mp member with rfl | later
          · exact used
          · exact all i later

section
variable {v : Receiver} {l : RxLadder} {p : Peers} {sources : List NodeId}

-- With no more registered peers than slots, a peer without a slot always finds a free one.
theorem free_slot (shares : Shares v l p) (few : sources.length ≤ reassemblySlots)
    (listed : ∀ src, v.keys.isRegistered src = true → src ∈ sources) (src : NodeId) (known : v.keys.isRegistered src = true)
    (absent : ∀ i, (l.slots i).used = true → (l.slots i).src ≠ src) : ∃ i, (l.slots i).used = false := by
  by_contra full
  have used : ∀ i, (l.slots i).used = true := by
    intro i
    by_contra free
    exact full ⟨i,by simpa using free⟩
  have injective : Function.Injective fun i => (l.slots i).src := fun i j same => shares.distinct i j (used i) (used j) same
  have held : (Finset.univ.image fun i => (l.slots i).src).card = reassemblySlots := by
    rw [Finset.card_image_of_injective _ injective,Finset.card_univ,Fintype.card_fin]
  have apart : src ∉ Finset.univ.image fun i => (l.slots i).src := by
    intro member
    obtain ⟨i,_,same⟩ := Finset.mem_image.mp member
    exact absent i (used i) same
  have inside : insert src (Finset.univ.image fun i => (l.slots i).src) ⊆ sources.toFinset := by
    intro other member
    rw [List.mem_toFinset]
    rcases Finset.mem_insert.mp member with rfl | held
    · exact listed _ known
    · obtain ⟨i,_,rfl⟩ := Finset.mem_image.mp held
      exact listed _ (shares.registered i (used i))
  have bound := Nat.le_trans (Finset.card_le_card inside) (List.toFinset_card_le sources)
  rw [Finset.card_insert_of_notMem apart,held] at bound
  omega

-- The slot a registered peer gets: its own, or one that no peer has had.
theorem slotFor_cases (shares : Shares v l p) (few : sources.length ≤ reassemblySlots)
    (listed : ∀ src, v.keys.isRegistered src = true → src ∈ sources) (src : NodeId) (known : v.keys.isRegistered src = true) (nowMs : UInt32) :
    (∃ i, l.slotFor src nowMs = (i,{l with slots := Function.update l.slots i {l.slots i with lastMs := nowMs}}) ∧
      (l.slots i).used = true ∧ (l.slots i).src = src) ∨
    (∃ i, l.slotFor src nowMs = (i,{l with slots := Function.update l.slots i ((l.slots i).assign src nowMs)}) ∧
      (l.slots i).used = false ∧ ∀ j, (l.slots j).used = true → (l.slots j).src ≠ src) := by
  unfold RxLadder.slotFor
  cases search : searchSlot l.slots src nowMs (List.finRange reassemblySlots) {} with
  | inl i =>
      obtain ⟨used,own⟩ := searchSlot_own _ _ _ _ _ _ search
      exact .inl ⟨i,rfl,used,own⟩
  | inr c =>
      obtain ⟨other,first,full⟩ := searchSlot_rest _ _ _ _ _ _ (by simp) search
      have absent : ∀ i, (l.slots i).used = true → (l.slots i).src ≠ src := fun i => other i (List.mem_finRange i)
      dsimp only
      cases free : c.free with
      | some i => exact .inr ⟨i,rfl,first i free,absent⟩
      | none =>
          obtain ⟨_,used⟩ := full free
          obtain ⟨i,unused⟩ := free_slot shares few listed src known absent
          rw [used i (List.mem_finRange i)] at unused
          cases unused

theorem fresh_assigned (shares : Shares v l p) (i : Fin reassemblySlots) (unused : (l.slots i).used = false) (src : NodeId) (nowMs : UInt32) :
    (((l.slots i).assign src nowMs).reassembler,((l.slots i).assign src nowMs).chunk) = v.fresh := by
  have built := shares.untouched i unused
  have reassembler : (l.slots i).reassembler = v.fresh.1 := congrArg Prod.fst built
  have chunk : (l.slots i).chunk = v.fresh.2 := congrArg Prod.snd built
  change ((l.slots i).reassembler.reset.forgetCompleted,(l.slots i).chunk) = v.fresh
  rw [reassembler,chunk]
  rfl

theorem Shares.of_slots {l' : RxLadder} (shares : Shares v l p) (slots : l'.slots = l.slots) (mac : l'.mac = l.mac) (keys : l'.keys = l.keys) :
    Shares v l' p := by
  obtain ⟨mac',keys',registered,distinct,untouched,taken,absent⟩ := shares
  exact ⟨mac.trans mac',keys.trans keys',slots ▸ registered,slots ▸ distinct,slots ▸ untouched,slots ▸ taken,slots ▸ absent⟩

-- A slot that holds its peer's state, and the slots of the others.
theorem Shares.put (shares : Shares v l p) (i : Fin reassemblySlots) (s : Slot) (state : Reassembler × UInt8)
    (known : v.keys.isRegistered s.src = true) (used : s.used = true) (holds : (s.reassembler,s.chunk) = state)
    (own : (l.slots i).used = true → (l.slots i).src = s.src)
    (alone : ∀ j, j ≠ i → (l.slots j).used = true → (l.slots j).src ≠ s.src) :
    Shares v {l with slots := Function.update l.slots i s} (Function.update p s.src state) := by
  refine ⟨shares.mac,shares.keys,?_,?_,?_,?_,?_⟩
  · intro j taken
    by_cases here : j = i
    · simpa [here] using known
    · simp only [Function.update_of_ne here] at taken ⊢
      exact shares.registered j taken
  · intro j k takenJ takenK same
    by_cases hereJ : j = i
    · by_cases hereK : k = i
      · rw [hereJ,hereK]
      · subst hereJ
        simp only [Function.update_self,Function.update_of_ne hereK] at takenK same
        exact absurd same.symm (alone k hereK takenK)
    · by_cases hereK : k = i
      · subst hereK
        simp only [Function.update_self,Function.update_of_ne hereJ] at takenJ same
        exact absurd same (alone j hereJ takenJ)
      · simp only [Function.update_of_ne hereJ,Function.update_of_ne hereK] at takenJ takenK same
        exact shares.distinct j k takenJ takenK same
  · intro j unused
    by_cases here : j = i
    · simp [here,used] at unused
    · simp only [Function.update_of_ne here] at unused ⊢
      exact shares.untouched j unused
  · intro j taken
    by_cases here : j = i
    · subst here
      simp only [Function.update_self]
      exact holds.symm
    · simp only [Function.update_of_ne here] at taken ⊢
      rw [Function.update_of_ne (alone j here taken)]
      exact shares.taken j taken
  · intro src none
    have apart : src ≠ s.src := by
      rintro rfl
      exact none i (by simpa using used) (by simp)
    rw [Function.update_of_ne apart]
    refine shares.absent src ?_
    intro j taken
    by_cases here : j = i
    · rw [here] at taken ⊢
      rw [own taken]
      exact apart.symm
    · simpa [here] using none j (by simpa [here] using taken)

-- A peer's fragment does to the ladder what it does to the peer's own reassembler.
theorem reassemble_shares (shares : Shares v l p) (i : Fin reassemblySlots) (f : Frame) (nowMs : UInt32) (used : (l.slots i).used = true)
    (own : (l.slots i).src = f.hdr.src) :
    (l.reassemble i f nowMs).1 = (fragmentStep (p f.hdr.src) f nowMs).1 ∧
      Shares v (l.reassemble i f nowMs).2 (Function.update p f.hdr.src (fragmentStep (p f.hdr.src) f nowMs).2) := by
  have state := shares.taken i used
  rw [own] at state
  have known := shares.registered i used
  rw [own] at known
  obtain ⟨status,slot⟩ := accept_uncounted (l.slots i).reassembler l.counters {} f nowMs
  unfold RxLadder.reassemble fragmentStep
  rw [state]
  dsimp only
  generalize (l.slots i).reassembler.accept l.counters f nowMs = counted at status slot ⊢
  generalize (l.slots i).reassembler.accept {} f nowMs = bare at status slot ⊢
  obtain ⟨st,r,c⟩ := counted
  obtain ⟨st',r',c'⟩ := bare
  dsimp only at status slot ⊢
  subst status slot
  have put : ∀ chunk, Shares v {l with slots := Function.update l.slots i {l.slots i with reassembler := r,chunk := chunk}}
      (Function.update p f.hdr.src (r,chunk)) := by
    intro chunk
    have placed := shares.put i {l.slots i with reassembler := r,chunk := chunk} (r,chunk) (by simpa [own] using known) used rfl (fun _ => rfl)
      (fun j other taken same => other (shares.distinct j i taken used same))
    rw [show ({l.slots i with reassembler := r,chunk := chunk} : Slot).src = f.hdr.src from own] at placed
    exact placed
  split
  · exact ⟨rfl,(put _).of_slots rfl rfl rfl⟩
  · exact ⟨rfl,(put _).of_slots rfl rfl rfl⟩

theorem admitted_shares (shares : Shares v l p) (few : sources.length ≤ reassemblySlots)
    (listed : ∀ src, v.keys.isRegistered src = true → src ∈ sources) (f : Frame) (nowMs : UInt32)
    (known : v.keys.isRegistered f.hdr.src = true) (longer : f.hdr.fragTotal ≠ 1) :
    (l.admitted f nowMs).1 = (fragmentStep (p f.hdr.src) f nowMs).1 ∧
      Shares v (l.admitted f nowMs).2 (Function.update p f.hdr.src (fragmentStep (p f.hdr.src) f nowMs).2) := by
  have sharesThen : Shares v {l with last := .ok} p := shares.of_slots rfl rfl rfl
  unfold RxLadder.admitted
  dsimp only
  rw [if_neg longer]
  rcases slotFor_cases sharesThen few listed f.hdr.src known nowMs with ⟨i,chosen,used,own⟩ | ⟨i,chosen,unused,absent⟩
  · rw [chosen]
    dsimp only
    have put := sharesThen.put i {l.slots i with lastMs := nowMs} (p f.hdr.src) (shares.registered i used) used
      (by rw [← own]; exact (shares.taken i used).symm) (fun _ => rfl)
      (fun j other taken same => other (shares.distinct j i taken used same))
    rw [own,Function.update_eq_self] at put
    exact reassemble_shares put i f nowMs (by simpa using used) (by simpa using own)
  · rw [chosen]
    dsimp only
    have put := sharesThen.put i ((l.slots i).assign f.hdr.src nowMs) (p f.hdr.src) known rfl
      ((fresh_assigned shares i unused _ nowMs).trans (shares.absent _ absent).symm)
      (fun taken => by rw [unused] at taken; cases taken) (fun j _ taken => absent j taken)
    change Shares v _ (Function.update p f.hdr.src (p f.hdr.src)) at put
    rw [Function.update_eq_self] at put
    exact reassemble_shares put i f nowMs (by simp [Slot.assign]) (by simp [Slot.assign])

end

def Slot.ticked (s : Slot) (nowMs : UInt32) : Slot := if s.used then {s with reassembler := (s.reassembler.tick {} nowMs).1} else s

theorem tickSlot_slots (nowMs : UInt32) (s : RxLadder × List ExpiredSet) (i : Fin reassemblySlots) :
    (RxLadder.tickSlot nowMs s i).1.slots = Function.update s.1.slots i ((s.1.slots i).ticked nowMs) ∧
      (RxLadder.tickSlot nowMs s i).1.mac = s.1.mac ∧ (RxLadder.tickSlot nowMs s i).1.keys = s.1.keys := by
  unfold RxLadder.tickSlot Slot.ticked
  dsimp only
  split
  · rename_i unused
    have free : (s.1.slots i).used = false := by simpa using unused
    rw [if_neg (by simp [free]),Function.update_eq_self]
    exact ⟨rfl,rfl,rfl⟩
  · rename_i taken
    have used : (s.1.slots i).used = true := by simpa using taken
    rw [if_pos used,tick_uncounted _ s.1.counters {} nowMs]
    exact ⟨rfl,rfl,rfl⟩

theorem tick_slots (l : RxLadder) (nowMs : UInt32) (cap : Nat) :
    (∀ i, (l.tick nowMs cap).2.2.slots i = (l.slots i).ticked nowMs) ∧ (l.tick nowMs cap).2.2.mac = l.mac ∧
      (l.tick nowMs cap).2.2.keys = l.keys := by
  have run : ∀ (order : List (Fin reassemblySlots)) (s : RxLadder × List ExpiredSet), order.Nodup →
      (∀ i, (order.foldl (RxLadder.tickSlot nowMs) s).1.slots i = if i ∈ order then (s.1.slots i).ticked nowMs else s.1.slots i) ∧
        (order.foldl (RxLadder.tickSlot nowMs) s).1.mac = s.1.mac ∧ (order.foldl (RxLadder.tickSlot nowMs) s).1.keys = s.1.keys := by
    intro order
    induction order with
    | nil => exact fun s _ => ⟨fun _ => by simp,rfl,rfl⟩
    | cons j rest ih =>
        intro s distinct
        obtain ⟨fresh,later⟩ := List.nodup_cons.mp distinct
        obtain ⟨slots,mac,keys⟩ := tickSlot_slots nowMs s j
        obtain ⟨final,finalMac,finalKeys⟩ := ih (RxLadder.tickSlot nowMs s j) later
        refine ⟨?_,finalMac.trans mac,finalKeys.trans keys⟩
        intro i
        rw [List.foldl_cons,final i,slots]
        by_cases here : i = j
        · subst here
          simp [fresh]
        · simp [here]
  obtain ⟨slots,mac,keys⟩ := run (List.finRange reassemblySlots) (l,[]) (List.nodup_finRange _)
  refine ⟨?_,mac,keys⟩
  intro i
  have here := slots i
  rw [if_pos (List.mem_finRange i)] at here
  exact here

section
variable {v : Receiver} {l : RxLadder} {p : Peers} {sources : List NodeId}

theorem tick_shares (shares : Shares v l p) (nowMs : UInt32) :
    Shares v (l.tick nowMs 0).2.2 (fun src => (((p src).1.tick {} nowMs).1,(p src).2)) := by
  obtain ⟨slots,mac,keys⟩ := tick_slots l nowMs 0
  have used : ∀ i, ((l.slots i).ticked nowMs).used = (l.slots i).used := by
    intro i
    unfold Slot.ticked
    split <;> rfl
  have src : ∀ i, ((l.slots i).ticked nowMs).src = (l.slots i).src := by
    intro i
    unfold Slot.ticked
    split <;> rfl
  refine ⟨mac.trans shares.mac,keys.trans shares.keys,?_,?_,?_,?_,?_⟩
  · intro i taken
    rw [slots i,used i] at taken
    rw [slots i,src i]
    exact shares.registered i taken
  · intro i j takenI takenJ same
    rw [slots i,used i] at takenI
    rw [slots j,used j] at takenJ
    rw [slots i,slots j,src i,src j] at same
    exact shares.distinct i j takenI takenJ same
  · intro i unused
    rw [slots i,used i] at unused
    rw [slots i,Slot.ticked,unused]
    exact shares.untouched i unused
  · intro i taken
    rw [slots i,used i] at taken
    rw [slots i,src i,shares.taken i taken,Slot.ticked,if_pos taken]
  · intro other none
    rw [shares.absent other ?_]
    · rfl
    · intro i taken
      have apart := none i (by rw [slots i,used i]; exact taken)
      rw [slots i,src i] at apart
      exact apart

-- Step by step the ladder answers as if every peer had a reassembler of its own.
theorem hear_shares (shares : Shares v l p) (few : sources.length ≤ reassemblySlots)
    (listed : ∀ src, v.keys.isRegistered src = true → src ∈ sources) (h : Heard) :
    (l.hear h).1 = (v.hear p h).1 ∧ Shares v (l.hear h).2 (v.hear p h).2 := by
  cases h with
  | tick nowMs => exact ⟨rfl,tick_shares shares nowMs⟩
  | frame buf nowMs =>
      obtain ⟨slots,mac,keys,_⟩ := offered_parts l buf
      have offered : Shares v (l.offered buf) p := shares.of_slots slots mac keys
      have key : ∀ src, (l.offered buf).keyFor src = v.keys.keyFor src := by
        intro src
        rw [RxLadder.keyFor,offered.keys]
        rfl
      have registered : ∀ src, (l.offered buf).registered src = v.keys.isRegistered src := by
        intro src
        rw [RxLadder.registered,offered.keys]
      have dropped : ∀ st, Shares v ((l.offered buf).discard st) p := fun st => offered.of_slots rfl rfl rfl
      change (l.accept buf nowMs).1 = _ ∧ _
      unfold RxLadder.hear Receiver.hear RxLadder.accept Receiver.passed
      dsimp only
      rw [offered.mac,key,registered]
      split
      · exact ⟨rfl,dropped _⟩
      · split
        · exact ⟨rfl,dropped _⟩
        · split
          · exact ⟨rfl,dropped _⟩
          · split
            · exact ⟨rfl,dropped _⟩
            · rename_i known
              dsimp only
              split
              · rename_i single
                unfold RxLadder.admitted
                dsimp only
                rw [if_pos single]
                exact ⟨rfl,offered.of_slots rfl rfl rfl⟩
              · rename_i longer
                exact admitted_shares offered few listed _ nowMs (by simpa using known) longer

end

-- The source of a frame is its third byte, whatever becomes of the rest.
def concerns (src : NodeId) : Heard → Bool
  | .frame buf _ => buf[2]? == some src
  | .tick _ => true

def deliveredFor (src : NodeId) (d : Option RxDelivery) : Option RxDelivery := d.filter fun d => d.hdr.src = src

theorem passed_src (v : Receiver) (buf : Bytes) (f : Frame) (passed : v.passed buf = some f) : buf[2]? = some f.hdr.src := by
  unfold Receiver.passed at passed
  dsimp only at passed
  split at passed; · cases passed
  rename_i headed
  split at passed; · cases passed
  rename_i taken
  split at passed; · cases passed
  split at passed; · cases passed
  cases passed
  have header : decodeHeader buf ladderCtx = (.ok,(decodeHeader buf ladderCtx).2) := by rw [← not_not.mp headed]
  obtain ⟨long,_,_,read,_⟩ := decodeHeader_parts _ _ _ header
  generalize (decodeHeader buf ladderCtx).2 = head at read taken ⊢
  subst read
  generalize ({ladderCtx with mac := v.mac,nodeKey := v.keys.keyFor (readHeader buf).src} : DecodeCtx) = ctx at taken ⊢
  have body : decodePayload buf ctx {hdr := readHeader buf} = (.ok,(decodePayload buf ctx {hdr := readHeader buf}).2) := by
    rw [← not_not.mp taken]
  obtain ⟨_,_,_,_,_,_,_,_,verified⟩ := decodePayload_parts _ _ _ _ body
  obtain ⟨_,_,hdr,_⟩ := authenticate_parts _ _ _ _ verified
  have length : 2 < buf.length := Nat.lt_of_lt_of_le (by decide) long
  rw [hdr]
  exact memoryOf_inside buf 2 length

theorem fragmentStep_hdr (s : Reassembler × UInt8) (f : Frame) (nowMs : UInt32) (d : RxDelivery)
    (delivered : (fragmentStep s f nowMs).1 = some d) : d.hdr = f.hdr := by
  unfold fragmentStep at delivered
  dsimp only at delivered
  split at delivered
  · cases delivered
  · cases delivered
    rfl

-- A receiver with a reassembler for each peer owes a peer nothing but its own frames and the clock.
theorem receiver_purged (v : Receiver) (src : NodeId) (events : List Heard) (p q : Peers) (same : p src = q src) :
    (answers v.hear p events).1.filterMap (deliveredFor src) =
      (answers v.hear q (events.filter (concerns src))).1.filterMap (deliveredFor src) := by
  refine answers_purged (concerns src) (deliveredFor src) (fun p q => p src = q src) ?_ ?_ events p q same
  · intro p q h kept same
    cases h with
    | tick nowMs =>
        refine ⟨rfl,?_⟩
        change (((p src).1.tick {} nowMs).1,(p src).2) = (((q src).1.tick {} nowMs).1,(q src).2)
        rw [same]
    | frame buf nowMs =>
        unfold Receiver.hear
        dsimp only
        cases passed : v.passed buf with
        | none => exact ⟨rfl,same⟩
        | some f =>
            have mine : f.hdr.src = src := by
              have third := passed_src v buf f passed
              have wanted : buf[2]? = some src := beq_iff_eq.mp kept
              rw [wanted] at third
              exact (Option.some.inj third).symm
            dsimp only
            split
            · exact ⟨rfl,same⟩
            · rw [mine,same]
              refine ⟨rfl,?_⟩
              dsimp only
              rw [Function.update_self,Function.update_self]
  · intro p q h dropped same
    cases h with
    | tick nowMs => cases dropped
    | frame buf nowMs =>
        unfold Receiver.hear
        dsimp only
        cases passed : v.passed buf with
        | none => exact ⟨rfl,same⟩
        | some f =>
            have other : f.hdr.src ≠ src := by
              intro mine
              have third := passed_src v buf f passed
              rw [mine] at third
              simp [concerns,third] at dropped
            dsimp only
            split
            · exact ⟨by simp [deliveredFor,other],same⟩
            · refine ⟨?_,?_⟩
              · cases delivered : (fragmentStep (p f.hdr.src) f nowMs).1 with
                | none => rfl
                | some d =>
                    have hdr := fragmentStep_hdr _ _ _ _ delivered
                    simp [deliveredFor,hdr,other]
              · dsimp only
                rw [Function.update_of_ne other.symm]
                exact same

-- A ladder built, given its peers and told its timeout.
def RxLadder.opened (v : Receiver) : RxLadder := (RxLadder.setAuth {} v.mac (some v.keys)).setFragTimeoutMs v.timeoutMs

theorem opened_shares (v : Receiver) : Shares v (RxLadder.opened v) (fun _ => v.fresh) := by
  refine ⟨rfl,rfl,?_,?_,?_,?_,?_⟩
  · intro i used
    cases used
  · intro i j used
    cases used
  · intro i _
    rfl
  · intro i used
    cases used
  · intro src _
    rfl

-- No slot with a live set is handed to another peer, and no peer's deliveries depend on what the others send.
theorem peers_do_not_disturb_each_other (v : Receiver) (sources : List NodeId) (few : sources.length ≤ reassemblySlots)
    (listed : ∀ src, v.keys.isRegistered src = true → src ∈ sources) (events : List Heard) :
    (∀ src nowMs, v.keys.isRegistered src = true →
      let l := (answers RxLadder.hear (RxLadder.opened v) events).2
      let slot := l.slots (l.slotFor src nowMs).1
      slot.used = true ∧ slot.src = src ∨ slot.used = false ∧ slot.reassembler.active = false) ∧
    (∀ src, (answers RxLadder.hear (RxLadder.opened v) events).1.filterMap (deliveredFor src) =
      (answers RxLadder.hear (RxLadder.opened v) (events.filter (concerns src))).1.filterMap (deliveredFor src)) := by
  have agree : ∀ events, (answers RxLadder.hear (RxLadder.opened v) events).1 = (answers v.hear (fun _ => v.fresh) events).1 ∧
      Shares v (answers RxLadder.hear (RxLadder.opened v) events).2 (answers v.hear (fun _ => v.fresh) events).2 := by
    intro events
    exact answers_agree (Shares v) (fun l p h shares => hear_shares shares few listed h) events _ _ (opened_shares v)
  refine ⟨?_,?_⟩
  · intro src nowMs known
    dsimp only
    have shares := (agree events).2
    rcases slotFor_cases shares few listed src known nowMs with ⟨i,chosen,used,own⟩ | ⟨i,chosen,unused,_⟩
    · rw [chosen]
      exact .inl ⟨used,own⟩
    · rw [chosen]
      have built : ((answers RxLadder.hear (RxLadder.opened v) events).2.slots i).reassembler = v.fresh.1 :=
        congrArg Prod.fst (shares.untouched i unused)
      exact .inr ⟨unused,by rw [built]; rfl⟩
  · intro src
    rw [(agree events).1,(agree (events.filter (concerns src))).1]
    exact receiver_purged v src events _ _ rfl

-- The provisioned table, under one key.
def provisioned : Receiver := ⟨none,⟨fun _ => some zeroKey,registered⟩,defaultFragTimeoutMs⟩

def pingHalf (src : NodeId) (index : UInt8) : Bytes :=
  withCrc (writeHeader (({type := .ping,src := src,dst := nodeBridge,seq := 7,ctxId := 3} : Header).setFrag index 2) ++ [0,1])

theorem peers_do_not_disturb_each_other_halves :
    (answers RxLadder.hear (RxLadder.opened provisioned)
        [.frame (pingHalf 0x01 1) 5,.frame (pingHalf 0x02 0) 7,.tick 9,.frame (pingHalf 0x01 0) 11]).1.filterMap (deliveredFor 0x01) =
      (answers RxLadder.hear (RxLadder.opened provisioned)
        [.frame (pingHalf 0x01 1) 5,.tick 9,.frame (pingHalf 0x01 0) 11]).1.filterMap (deliveredFor 0x01) :=
  (peers_do_not_disturb_each_other provisioned nodeTable (by decide) (fun _ known => List.contains_iff_mem.mp known)
    [.frame (pingHalf 0x01 1) 5,.frame (pingHalf 0x02 0) 7,.tick 9,.frame (pingHalf 0x01 0) 11]).2 0x01

end LoraRan.Bridge
