import LoraRan.Library.StepSystem
import LoraRan.Protocol.FragmentMap
import Mathlib.Algebra.BigOperators.Group.Finset.Basic
import Mathlib.Algebra.BigOperators.Intervals
import Mathlib.Algebra.Order.BigOperators.Group.Finset

namespace LoraRan.Protocol
open Library.Staging Library.StepSystem
open scoped BigOperators

-- The live bytes of a slot, over the set bits of its mask.
def Reassembler.held (r : Reassembler) : Nat := ∑ i ∈ Finset.range maxFragments.toNat, r.oldLen i

-- What is true of a slot at any time: the staging area fits its storage, each live range lies in it, no bit stands past the last
-- index, and the set's length counts live bytes only.
structure Tidy (r : Reassembler) : Prop where
  room : r.stage.length ≤ maxPayloadPlain
  windows : r.Windows
  few : ∀ i, r.got i = true → i < maxFragments.toNat
  counted : r.setLen = r.held

variable {r : Reassembler}

theorem Tidy.oldLen_le (tidy : Tidy r) (i : Nat) : r.oldLen i ≤ r.setLen := by
  rw [tidy.counted]
  by_cases present : r.got i = true
  · exact Finset.single_le_sum (fun _ _ => Nat.zero_le _) (Finset.mem_range.mpr (tidy.few i present))
  · simp [Reassembler.oldLen,present]

theorem reset_tidy (r : Reassembler) : Tidy r.reset := by
  refine ⟨Nat.zero_le _,reset_windows r,?_,?_⟩
  · intro i present
    cases present
  · simp [Reassembler.held,Reassembler.oldLen,Reassembler.reset]

-- Neither the key nor the clock of a slot decides whether it is tidy.
theorem Tidy.of_same {r' : Reassembler} (tidy : Tidy r) (stage : r'.stage = r.stage) (got : r'.got = r.got) (off : r'.fragOff = r.fragOff)
    (len : r'.fragLen = r.fragLen) (setLen : r'.setLen = r.setLen) : Tidy r' := by
  obtain ⟨room,⟨inside,apart⟩,few,counted⟩ := tidy
  have held : r'.held = r.held := by
    unfold Reassembler.held Reassembler.oldLen
    rw [got,len]
  refine ⟨by rw [stage]; exact room,⟨?_,?_⟩,by rw [got]; exact few,by rw [setLen,held]; exact counted⟩
  · rw [got,off,len,stage]
    exact inside
  · rw [got,off,len]
    exact apart

theorem begin_tidy (r : Reassembler) (f : Frame) (nowMs : UInt32) : Tidy (r.begin f nowMs) :=
  (reset_tidy r).of_same rfl rfl rfl rfl rfl

theorem assemble_tidy (tidy : Tidy r) : Tidy r.assemble := tidy.of_same rfl rfl rfl rfl rfl

theorem tick_tidy (tidy : Tidy r) (counters : Counters) (nowMs : UInt32) : Tidy (r.tick counters nowMs).1 := by
  unfold Reassembler.tick
  split
  · exact reset_tidy r
  · exact tidy

theorem store_oldLen (r : Reassembler) (index : Nat) (payload : Bytes) :
    (r.store index (r.oldLen index) payload).oldLen = Function.update r.oldLen index payload.length := by
  funext i
  by_cases here : i = index
  · subst here
    simp [Reassembler.oldLen,Reassembler.store]
  · simp [Reassembler.oldLen,Reassembler.store,here]

-- What a replaced fragment no longer holds is taken off before the new one is counted.
theorem store_counted (tidy : Tidy r) (index : Nat) (payload : Bytes) (small : index < maxFragments.toNat) :
    (r.store index (r.oldLen index) payload).setLen = (r.store index (r.oldLen index) payload).held := by
  have member : index ∈ Finset.range maxFragments.toNat := Finset.mem_range.mpr small
  have before : r.held = r.oldLen index + ∑ i ∈ (Finset.range maxFragments.toNat).erase index, r.oldLen i :=
    (Finset.add_sum_erase _ _ member).symm
  unfold Reassembler.held
  rw [store_oldLen,Finset.sum_update_of_mem member,Finset.sdiff_singleton_eq_erase]
  change r.setLen - r.oldLen index + payload.length = _
  rw [tidy.counted,before]
  omega

theorem store_tidy (tidy : Tidy r) (index : Nat) (payload : Bytes) (small : index < maxFragments.toNat)
    (room : r.stage.length + payload.length ≤ maxPayloadPlain) : Tidy (r.store index (r.oldLen index) payload) := by
  refine ⟨?_,(store_placed r index _ payload tidy.windows).windows,?_,store_counted tidy index payload small⟩
  · simpa [Reassembler.store] using room
  · intro i present
    by_cases here : i = index
    · rw [here]
      exact small
    · simp only [Reassembler.store,Function.update_of_ne here] at present
      exact tidy.few i present

theorem place_tidy (tidy : Tidy r) (counters : Counters) (f : Frame) (small : f.hdr.fragIndex.toNat < maxFragments.toNat) :
    Tidy (r.place counters f).2.1 := by
  unfold Reassembler.place
  dsimp only
  split
  · exact reset_tidy r
  · split
    · exact reset_tidy r
    · split
      · rename_i duplicate
        obtain ⟨present,same⟩ := duplicate
        rw [Reassembler.oldLen,if_pos present] at same
        have inside := tidy.windows.1 _ present
        have length : (overwrite r.stage (r.fragOff f.hdr.fragIndex.toNat) f.payload).length = r.stage.length :=
          overwrite_length _ _ _ (by omega)
        refine ⟨?_,(overwrite_placed r _ _ tidy.windows present same).windows,tidy.few,tidy.counted⟩
        simp only [length]
        exact tidy.room
      · split
        · exact reset_tidy r
        · rename_i fits
          have stored := store_tidy tidy f.hdr.fragIndex.toNat f.payload small (by omega)
          dsimp only
          split
          · exact assemble_tidy stored
          · exact stored

-- The reassembled length never passes the cap of its type.
theorem place_capped (tidy : Tidy r) (counters : Counters) (f : Frame) (placed : (r.place counters f).1 = .ok) :
    (r.place counters f).2.1.setLen ≤ reassemblyCap f.hdr.type := by
  have old := tidy.oldLen_le f.hdr.fragIndex.toNat
  unfold Reassembler.place at placed ⊢
  dsimp only at placed ⊢
  split at placed
  · cases placed
  · rename_i sameTotal
    rw [if_neg sameTotal]
    split at placed
    · cases placed
    · rename_i short
      rw [if_neg short]
      split at placed
      · rename_i duplicate
        rw [if_pos duplicate]
        change r.setLen ≤ _
        omega
      · rename_i fresh
        rw [if_neg fresh]
        split at placed
        · cases placed
        · rename_i fits
          rw [if_neg fits]
          have length : (r.store f.hdr.fragIndex.toNat (r.oldLen f.hdr.fragIndex.toNat) f.payload).setLen ≤ reassemblyCap f.hdr.type := by
            change r.setLen - _ + _ ≤ _
            omega
          dsimp only
          split
          · exact length
          · exact length

-- The slot a fragment is placed in: its own live set untouched, or one begun for it.
theorem claim_parts (r : Reassembler) (counters : Counters) (f : Frame) (nowMs : UInt32) :
    (r.active && r.sameSet f) = true ∧ (r.claim counters f nowMs).1 = r ∨
    (r.active && r.sameSet f) = false ∧ ∃ freed : Reassembler, freed.last = r.last ∧ freed.timeoutMs = r.timeoutMs ∧
      (r.claim counters f nowMs).1 = freed.begin f nowMs := by
  unfold Reassembler.claim
  cases live : r.active with
  | false =>
      refine .inr ⟨by simp,if r.complete then r.reset else r,?_,?_,?_⟩
      · split <;> rfl
      · split <;> rfl
      · cases complete : r.complete with
        | true => simp [Reassembler.reset]
        | false => simp [live]
  | true =>
      cases same : r.sameSet f with
      | true => exact .inl ⟨rfl,by simp [live,same]⟩
      | false => exact .inr ⟨rfl,r.reset,rfl,rfl,by simp [live,same]⟩

-- The payload of an index: the last one accepted for it.
def latest (frames : List Frame) (i : Nat) : Option Bytes := ((frames.filter fun f => f.hdr.fragIndex.toNat = i).getLast?).map Frame.payload

theorem latest_append (frames : List Frame) (f : Frame) (i : Nat) :
    latest (frames ++ [f]) i = if f.hdr.fragIndex.toNat = i then some f.payload else latest frames i := by
  unfold latest
  by_cases here : f.hdr.fragIndex.toNat = i
  · simp [List.filter_append,here]
  · simp [List.filter_append,here]

-- A slot in use. `accepted` is what was accepted for the set since it began, and `completed` every set that was delivered, with
-- the fragments it was made of.
structure Gathering where
  slot : Reassembler := {}
  counters : Counters := {}
  accepted : List Frame := []
  completed : List (List Frame × Bytes) := []

inductive SlotOp where
  | accept (f : Frame) (nowMs : UInt32)
  | tick (nowMs : UInt32)
  | reset
  | setTimeoutMs (ms : UInt32)

-- The fragment belongs to the set that is still live when it arrives.
def Gathering.joins (s : Gathering) (f : Frame) (nowMs : UInt32) : Bool :=
  let r := (s.slot.tick s.counters nowMs).1
  r.active && r.sameSet f

def Gathering.step (s : Gathering) : SlotOp → Gathering
  | .accept f nowMs =>
      let (st,slot,counters) := s.slot.accept s.counters f nowMs
      if st ≠ .ok ∨ f.hdr.fragTotal = 1 then {s with slot := slot,counters := counters}
      else
        let accepted := if s.joins f nowMs then s.accepted ++ [f] else [f]
        {slot := slot
         counters := counters
         accepted := accepted
         completed := if slot.active then s.completed else (accepted,slot.out) :: s.completed}
  | .tick nowMs => {s with slot := (s.slot.tick s.counters nowMs).1,counters := (s.slot.tick s.counters nowMs).2}
  | .reset => {s with slot := s.slot.reset}
  | .setTimeoutMs ms => {s with slot := s.slot.setTimeoutMs ms}

-- A delivered set: fragments of one key and one total, every index among them, and of each index the last payload, in order.
def Whole (c : List Frame × Bytes) : Prop :=
  ∃ key total, (∀ f ∈ c.1, f.setKey = key ∧ f.hdr.fragTotal = total) ∧ 1 < total ∧ (∀ i < total.toNat, (latest c.1 i).isSome) ∧
    c.2 = (List.range total.toNat).flatMap (fun i => (latest c.1 i).getD []) ∧ c.2.length ≤ reassemblyCap key.type

-- The live set is the map of what was accepted.
structure Live (r : Reassembler) (frames : List Frame) : Prop where
  same : ∀ f ∈ frames, f.setKey = r.key ∧ f.hdr.fragTotal = r.total
  several : 1 < r.total
  below : ∀ i, r.got i = true → i < r.total.toNat
  mapped : ∀ i, latest frames i = if r.got i then some (r.piece i) else none

theorem begin_live (r : Reassembler) (f : Frame) (nowMs : UInt32) (several : 1 < f.hdr.fragTotal) : Live (r.begin f nowMs) [] := by
  refine ⟨by simp,several,?_,?_⟩
  · intro i present
    cases present
  · intro i
    rfl

theorem placed_live {frames : List Frame} {placed : Reassembler} {f : Frame} (live : Live r frames)
    (put : Placed r placed f.hdr.fragIndex.toNat f.payload) (key : f.setKey = r.key) (total : f.hdr.fragTotal = r.total)
    (indexed : f.hdr.fragIndex < f.hdr.fragTotal) : Live placed (frames ++ [f]) := by
  refine ⟨?_,put.total ▸ live.several,?_,?_⟩
  · intro other member
    rw [put.key,put.total]
    rcases List.mem_append.mp member with old | new
    · exact live.same other old
    · obtain rfl := List.mem_singleton.mp new
      exact ⟨key,total⟩
  · intro i present
    rw [put.total]
    by_cases here : i = f.hdr.fragIndex.toNat
    · rw [here,← total]
      exact UInt8.lt_iff_toNat_lt.mp indexed
    · rw [put.got,Function.update_of_ne here] at present
      exact live.below i present
  · intro i
    rw [latest_append,put.got]
    by_cases here : f.hdr.fragIndex.toNat = i
    · subst here
      simp [put.here]
    · have other : i ≠ f.hdr.fragIndex.toNat := fun equal => here equal.symm
      rw [if_neg here,Function.update_of_ne other,live.mapped i]
      split
      · rename_i present
        rw [put.elsewhere i other present]
      · rfl

-- Delivery: every index is there, so the pieces are the payloads and their lengths add up to the set's.
theorem assembled_whole {frames : List Frame} (live : Live r frames) (tidy : Tidy r) (capped : r.setLen ≤ reassemblyCap r.key.type)
    (small : r.total.toNat ≤ maxFragments.toNat) (filled : r.filled = true) : Whole (frames,r.assemble.out) := by
  have present : ∀ i < r.total.toNat, r.got i = true := by
    intro i inside
    exact List.all_eq_true.mp filled i (List.mem_range.mpr inside)
  have pieces : ∀ i < r.total.toNat, latest frames i = some (r.piece i) := by
    intro i inside
    rw [live.mapped i,present i inside]
    rfl
  have length : r.assemble.out.length = r.setLen := by
    have summed : ∀ n ≤ r.total.toNat, ((List.range n).flatMap r.piece).length = ∑ i ∈ Finset.range n, r.oldLen i := by
      intro n
      induction n with
      | zero => intro _; rfl
      | succ n ih =>
          intro inside
          have here := present n (by omega)
          have fits := tidy.windows.1 n here
          rw [List.range_succ,List.flatMap_append,List.length_append,ih (by omega),Finset.sum_range_succ]
          congr 1
          simp only [List.flatMap_cons,List.flatMap_nil,List.append_nil,Reassembler.piece,window,List.length_take,List.length_drop,
            Reassembler.oldLen,here,if_true]
          omega
    rw [assemble_out,summed _ (Nat.le_refl _),tidy.counted]
    refine Finset.sum_subset (Finset.range_subset_range.mpr small) ?_
    intro i _ outside
    have absent : ¬ r.got i = true := fun got => outside (Finset.mem_range.mpr (live.below i got))
    simp [Reassembler.oldLen,absent]
  refine ⟨r.key,r.total,live.same,live.several,fun i inside => by rw [pieces i inside]; rfl,?_,by rw [length]; exact capped⟩
  rw [assemble_out]
  refine List.flatMap_congr ?_
  intro i member
  rw [pieces i (List.mem_range.mp member)]
  rfl

structure Mapped (s : Gathering) : Prop where
  tidy : Tidy s.slot
  live : s.slot.active = true → Live s.slot s.accepted
  whole : ∀ c ∈ s.completed, Whole c

theorem tick_mapped {s : Gathering} (mapped : Mapped s) (counters : Counters) (nowMs : UInt32) (slot : Reassembler)
    (ticked : slot = s.slot ∨ slot = (s.slot.tick counters nowMs).1) : Tidy slot ∧ (slot.active = true → Live slot s.accepted) := by
  rcases ticked with rfl | rfl
  · exact ⟨mapped.tidy,mapped.live⟩
  · refine ⟨tick_tidy mapped.tidy counters nowMs,?_⟩
    unfold Reassembler.tick
    split
    · intro active
      cases active
    · exact mapped.live

theorem claim_tidy (tidy : Tidy r) (counters : Counters) (f : Frame) (nowMs : UInt32) : Tidy (r.claim counters f nowMs).1 := by
  rcases claim_parts r counters f nowMs with ⟨_,kept⟩ | ⟨_,freed,_,_,begun⟩
  · rw [kept]
    exact tidy
  · rw [begun]
    exact begin_tidy freed f nowMs

-- The set a fragment is placed in, and what was accepted for it before.
theorem claim_live {frames : List Frame} (live : r.active = true → Live r frames) (counters : Counters) (f : Frame)
    (nowMs : UInt32) (several : 1 < f.hdr.fragTotal) :
    (r.claim counters f nowMs).1.key = f.setKey ∧ (r.claim counters f nowMs).1.active = true ∧
      Live (r.claim counters f nowMs).1 (if r.active && r.sameSet f then frames else []) := by
  rcases claim_parts r counters f nowMs with ⟨joined,kept⟩ | ⟨apart,freed,_,_,begun⟩
  · obtain ⟨active,same⟩ := Bool.and_eq_true_iff.mp joined
    rw [kept,if_pos joined]
    exact ⟨(beq_iff_eq.mp same).symm,active,live active⟩
  · rw [begun,apart]
    exact ⟨rfl,rfl,begin_live freed f nowMs several⟩

-- Only a frame whose index and total are in range is taken.
theorem accept_ok_shape (r : Reassembler) (counters : Counters) (f : Frame) (nowMs : UInt32) (taken : (r.accept counters f nowMs).1 = .ok) :
    f.hdr.fragTotal ≠ 0 ∧ f.hdr.fragTotal ≤ maxFragments ∧ f.hdr.fragIndex < f.hdr.fragTotal := by
  unfold Reassembler.accept at taken
  split at taken
  · cases taken
  · rename_i some
    split at taken
    · cases taken
    · rename_i inside
      obtain ⟨few,below⟩ := not_or.mp inside
      exact ⟨some,UInt8.not_lt.mp few,UInt8.not_le.mp below⟩

theorem accept_mapped {s : Gathering} (mapped : Mapped s) (f : Frame) (nowMs : UInt32) : Mapped (s.step (.accept f nowMs)) := by
  unfold Gathering.step
  dsimp only
  by_cases single : f.hdr.fragTotal = 1
  · rw [if_pos (.inr single)]
    have kept : ∃ out complete, (s.slot.accept s.counters f nowMs).2.1 = {s.slot with out := out,complete := complete} := by
      unfold Reassembler.accept Reassembler.acceptSingle
      split
      · exact ⟨_,_,rfl⟩
      · split
        · exact ⟨_,_,rfl⟩
        · split
          · exact ⟨_,_,rfl⟩
          · exact ⟨_,_,rfl⟩
    obtain ⟨out,complete,kept⟩ := kept
    refine ⟨?_,?_,mapped.whole⟩
    · rw [kept]
      exact mapped.tidy.of_same rfl rfl rfl rfl rfl
    · intro active
      rw [kept] at active ⊢
      obtain ⟨same,several,below,pieces⟩ := mapped.live active
      exact ⟨same,several,below,pieces⟩
  · rcases accept_fragment_cases s.slot s.counters f nowMs single with ⟨refused,slot⟩ | ⟨_,counted,claimed,placed⟩
    · rw [if_pos (.inl refused)]
      obtain ⟨tidy,live⟩ := tick_mapped mapped s.counters nowMs _ slot
      exact ⟨tidy,live,mapped.whole⟩
    · obtain ⟨tidy,live⟩ := tick_mapped mapped s.counters nowMs _ (.inr rfl)
      by_cases taken : (s.slot.accept s.counters f nowMs).1 = .ok
      · obtain ⟨some,few,below⟩ := accept_ok_shape s.slot s.counters f nowMs taken
        have several : 1 < f.hdr.fragTotal := by
          rw [UInt8.lt_iff_toNat_lt]
          have zero : f.hdr.fragTotal.toNat ≠ 0 := fun equal => some (UInt8.toNat_inj.mp equal)
          have one : f.hdr.fragTotal.toNat ≠ 1 := fun equal => single (UInt8.toNat_inj.mp equal)
          change 1 < _
          omega
        have small : f.hdr.fragIndex.toNat < maxFragments.toNat :=
          Nat.lt_of_lt_of_le (UInt8.lt_iff_toNat_lt.mp below) (UInt8.le_iff_toNat_le.mp few)
        have claimedTidy := claim_tidy tidy counted f nowMs
        obtain ⟨key,active,claimedLive⟩ := claim_live live counted f nowMs several
        rw [if_neg (by simp [taken,single])]
        rw [placed] at taken ⊢
        have placedTidy := place_tidy claimedTidy claimed f small
        have capped := place_capped claimedTidy claimed f taken
        rcases place_cases _ claimed f claimedTidy.windows with ⟨refused,_⟩ | ⟨_,total,put,placing,ends⟩
        · exact absurd taken refused
        · have putLive := placed_live claimedLive placing key.symm total below
          have joined : (if s.joins f nowMs then s.accepted ++ [f] else [f]) =
              (if (s.slot.tick s.counters nowMs).1.active && (s.slot.tick s.counters nowMs).1.sameSet f then s.accepted else []) ++ [f] := by
            unfold Gathering.joins
            split <;> rfl
          rw [← joined] at putLive
          rcases ends with still | ⟨filled,done⟩
          · rw [still] at placedTidy ⊢
            have going : put.active = true := placing.active.trans active
            refine ⟨placedTidy,fun _ => putLive,?_⟩
            simp only [going,if_true]
            exact mapped.whole
          · rw [done] at placedTidy capped ⊢
            refine ⟨placedTidy,(fun active => by cases active),?_⟩
            intro c member
            rcases List.mem_cons.mp member with rfl | old
            · refine assembled_whole putLive (placedTidy.of_same rfl rfl rfl rfl rfl) ?_ ?_ filled
              · rw [placing.key,key]
                exact capped
              · rw [placing.total,← total]
                exact UInt8.le_iff_toNat_le.mp few
            · exact mapped.whole c old
      · rw [if_pos (.inl taken)]
        rw [placed] at taken ⊢
        rcases place_cases _ claimed f (claim_tidy tidy counted f nowMs).windows with ⟨_,dropped⟩ | ⟨accepted,_⟩
        · refine ⟨?_,?_,mapped.whole⟩
          · rw [dropped]
            exact reset_tidy _
          · rw [dropped]
            intro active
            cases active
        · exact absurd accepted taken

theorem step_mapped {s : Gathering} (mapped : Mapped s) (op : SlotOp) : Mapped (s.step op) := by
  cases op with
  | accept f nowMs => exact accept_mapped mapped f nowMs
  | tick nowMs =>
      obtain ⟨tidy,live⟩ := tick_mapped mapped s.counters nowMs _ (.inr rfl)
      exact ⟨tidy,live,mapped.whole⟩
  | reset => exact ⟨reset_tidy s.slot,(fun active => by cases active),mapped.whole⟩
  | setTimeoutMs ms =>
      refine ⟨mapped.tidy.of_same rfl rfl rfl rfl rfl,?_,mapped.whole⟩
      intro active
      obtain ⟨same,several,below,pieces⟩ := mapped.live active
      exact ⟨same,several,below,pieces⟩

theorem start_mapped : Mapped {} := by
  refine ⟨(reset_tidy {}).of_same rfl rfl rfl rfl rfl,?_,?_⟩
  · intro active
    cases active
  · intro c member
    cases member

theorem run_mapped (ops : List SlotOp) (s : Gathering) (mapped : Mapped s) : Mapped (ops.foldl Gathering.step s) := by
  induction ops generalizing s with
  | nil => exact mapped
  | cons op rest ih => exact ih (s.step op) (step_mapped mapped op)

-- Time need not even be monotone: the clock decides when a set is dropped, never what a delivered one holds.
theorem reassembler_refines_index_map (ops : List SlotOp) :
    (∀ c ∈ (ops.foldl Gathering.step {}).completed, Whole c) ∧
    (ops.foldl Gathering.step {}).slot.stage.length ≤ 204 ∧
    (ops.foldl Gathering.step {}).slot.setLen = (ops.foldl Gathering.step {}).slot.held ∧
    (∀ i, (ops.foldl Gathering.step {}).slot.got i = true → i ≤ 14 ∧
      (ops.foldl Gathering.step {}).slot.fragOff i + (ops.foldl Gathering.step {}).slot.fragLen i ≤
        (ops.foldl Gathering.step {}).slot.stage.length) ∧
    (∀ i, (ops.foldl Gathering.step {}).slot.oldLen i ≤ (ops.foldl Gathering.step {}).slot.setLen) := by
  obtain ⟨tidy,_,whole⟩ := run_mapped ops {} start_mapped
  refine ⟨whole,tidy.room,tidy.counted,?_,tidy.oldLen_le⟩
  intro i present
  have few : i < 15 := tidy.few i present
  exact ⟨by omega,tidy.windows.1 i present⟩

end LoraRan.Protocol
