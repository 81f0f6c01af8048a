import LoraRan.Library.Occurrence
import LoraRan.Protocol.IndexMap
import Mathlib.Data.List.Induction

namespace LoraRan.Protocol
open Library.Staging Library.Occurrence

variable {r : Reassembler}

-- What a fragment placed leaves: the set with it in its place, assembled if that was the last one missing.
theorem place_taken (r : Reassembler) (counters : Counters) (f : Frame) (windows : r.Windows) (short : r.filled = false)
    (taken : (r.place counters f).1 = .ok) : f.hdr.fragTotal = r.total ∧ ∃ put, Placed r put f.hdr.fragIndex.toNat f.payload ∧
      (r.place counters f).2.1 = if put.filled then put.assemble else put := by
  unfold Reassembler.place at taken ⊢
  dsimp only at taken ⊢
  split at taken
  · cases taken
  · rename_i sameTotal
    refine ⟨not_not.mp sameTotal,?_⟩
    rw [if_neg sameTotal]
    split at taken
    · cases taken
    · rename_i capped
      rw [if_neg capped]
      split at taken
      · rename_i duplicate
        rw [if_pos duplicate]
        obtain ⟨present,same⟩ := duplicate
        rw [Reassembler.oldLen,if_pos present] at same
        refine ⟨_,overwrite_placed r _ _ windows present same,?_⟩
        have unfilled : ({r with stage := overwrite r.stage (r.fragOff f.hdr.fragIndex.toNat) f.payload} : Reassembler).filled = false := short
        rw [unfilled]
        rfl
      · rename_i fresh
        rw [if_neg fresh]
        split at taken
        · cases taken
        · rename_i room
          rw [if_neg room]
          exact ⟨_,store_placed r _ (r.oldLen f.hdr.fragIndex.toNat) _ windows,rfl⟩

-- A live set always misses something.
def Short (r : Reassembler) : Prop := r.active = true → r.filled = false

theorem filled_iff {frames : List Frame} (live : Live r frames) :
    r.filled = true ↔ ∀ i < r.total.toNat, (latest frames i).isSome := by
  unfold Reassembler.filled
  rw [List.all_eq_true]
  constructor
  · intro all i inside
    rw [live.mapped i,all i (List.mem_range.mpr inside)]
    rfl
  · intro all i member
    have some_ := all i (List.mem_range.mp member)
    rw [live.mapped i] at some_
    by_contra absent
    rw [if_neg absent] at some_
    cases some_

theorem begin_short (r : Reassembler) (f : Frame) (nowMs : UInt32) (several : 1 < f.hdr.fragTotal) : (r.begin f nowMs).filled = false := by
  rw [Bool.eq_false_iff]
  intro filled
  have all := (filled_iff (begin_live r f nowMs several)).mp filled 0 ?_
  · cases all
  · have wide := UInt8.lt_iff_toNat_lt.mp several
    exact Nat.lt_of_le_of_lt (Nat.zero_le _) wide

theorem claim_short (short : Short r) (counters : Counters) (f : Frame) (nowMs : UInt32) (several : 1 < f.hdr.fragTotal) :
    (r.claim counters f nowMs).1.filled = false := by
  rcases claim_parts r counters f nowMs with ⟨joined,kept⟩ | ⟨_,freed,_,_,begun⟩
  · rw [kept]
    exact short (Bool.and_eq_true_iff.mp joined).1
  · rw [begun]
    exact begin_short freed f nowMs several

theorem tick_short (short : Short r) (counters : Counters) (nowMs : UInt32) : Short (r.tick counters nowMs).1 := by
  unfold Reassembler.tick
  split
  · intro live
    cases live
  · exact short

-- The slot an accepted fragment of a longer set is placed in.
theorem accept_several (r : Reassembler) (counters : Counters) (f : Frame) (nowMs : UInt32) (longer : f.hdr.fragTotal ≠ 1)
    (taken : (r.accept counters f nowMs).1 = .ok) : 1 < f.hdr.fragTotal ∧ f.hdr.fragIndex < f.hdr.fragTotal ∧
      ∃ counted claimed, r.accept counters f nowMs = (((r.tick counters nowMs).1).claim counted f nowMs).1.place claimed f := by
  obtain ⟨some_,_,below⟩ := accept_ok_shape r counters f nowMs taken
  refine ⟨?_,below,?_⟩
  · rw [UInt8.lt_iff_toNat_lt]
    have zero : f.hdr.fragTotal.toNat ≠ 0 := fun equal => some_ (UInt8.toNat_inj.mp equal)
    have one : f.hdr.fragTotal.toNat ≠ 1 := fun equal => longer (UInt8.toNat_inj.mp equal)
    change 1 < _
    omega
  · rcases accept_fragment_cases r counters f nowMs longer with ⟨refused,_⟩ | ⟨_,placed⟩
    · exact absurd taken refused
    · exact placed

theorem single_kept (r : Reassembler) (counters : Counters) (f : Frame) (nowMs : UInt32) (single : f.hdr.fragTotal = 1) :
    ∃ out complete, (r.accept counters f nowMs).2.1 = {r with out := out,complete := complete} := by
  unfold Reassembler.accept Reassembler.acceptSingle
  split
  · exact ⟨_,_,rfl⟩
  · split
    · exact ⟨_,_,rfl⟩
    · split
      · exact ⟨_,_,rfl⟩
      · exact ⟨_,_,rfl⟩

theorem accept_short (tidy : Tidy r) (short : Short r) (counters : Counters) (f : Frame) (nowMs : UInt32) :
    Short (r.accept counters f nowMs).2.1 := by
  by_cases single : f.hdr.fragTotal = 1
  · obtain ⟨out,complete,kept⟩ := single_kept r counters f nowMs single
    rw [kept]
    exact short
  · by_cases taken : (r.accept counters f nowMs).1 = .ok
    · obtain ⟨several,_,counted,claimed,placed⟩ := accept_several r counters f nowMs single taken
      have ready := tick_tidy tidy counters nowMs
      rw [placed] at taken ⊢
      obtain ⟨_,put,_,left⟩ := place_taken _ claimed f (claim_tidy ready counted f nowMs).windows
        (claim_short (tick_short short counters nowMs) counted f nowMs several) taken
      rw [left]
      split
      · intro live
        cases live
      · rename_i unfilled
        exact fun _ => Bool.eq_false_iff.mpr unfilled
    · rcases accept_fragment_cases r counters f nowMs single with ⟨_,kept | ticked⟩ | ⟨_,counted,claimed,placed⟩
      · rw [kept]
        exact short
      · rw [ticked]
        exact tick_short short counters nowMs
      · rw [placed] at taken ⊢
        rcases place_cases _ claimed f (claim_tidy (tick_tidy tidy counters nowMs) counted f nowMs).windows with ⟨_,dropped⟩ | ⟨done,_⟩
        · rw [dropped]
          intro live
          cases live
        · exact absurd done taken

def gathered (ops : List SlotOp) : Gathering := ops.foldl Gathering.step {}

theorem gathered_snoc (ops : List SlotOp) (op : SlotOp) : gathered (ops ++ [op]) = (gathered ops).step op := by
  unfold gathered
  rw [List.foldl_append]
  rfl

theorem gathered_mapped (ops : List SlotOp) : Mapped (gathered ops) := run_mapped ops {} start_mapped

theorem step_slot (s : Gathering) (f : Frame) (nowMs : UInt32) :
    (s.step (.accept f nowMs)).slot = (s.slot.accept s.counters f nowMs).2.1 := by
  unfold Gathering.step
  dsimp only
  split <;> rfl

theorem gathered_short (ops : List SlotOp) : Short (gathered ops).slot := by
  induction ops using List.reverseRecOn with
  | nil =>
    intro live
    cases live
  | append_singleton ops op ih =>
    rw [gathered_snoc]
    cases op with
    | accept f nowMs =>
      rw [step_slot]
      exact accept_short (gathered_mapped ops).tidy ih _ f nowMs
    | tick nowMs => exact tick_short ih _ nowMs
    | reset =>
      intro live
      cases live
    | setTimeoutMs ms => exact ih

-- The fragments accepted for the set a fragment belongs to, itself the last.
def Gathering.setOf (s : Gathering) (f : Frame) (nowMs : UInt32) : List Frame := if s.joins f nowMs then s.accepted ++ [f] else [f]

def Gathering.Finishes (s : Gathering) (f : Frame) (nowMs : UInt32) : Prop :=
  ∀ i < f.hdr.fragTotal.toNat, (latest (s.setOf f nowMs) i).isSome

def Gathering.assembled (s : Gathering) (f : Frame) (nowMs : UInt32) : Bytes :=
  (List.range f.hdr.fragTotal.toNat).flatMap fun i => (latest (s.setOf f nowMs) i).getD []

-- What a caller reads after a frame was accepted is that frame's.
def Gathering.Describes (s : Gathering) (f : Frame) (nowMs : UInt32) : Prop :=
  ((s.slot.accept s.counters f nowMs).2.1.complete = true ↔ f.hdr.fragTotal = 1 ∨ s.Finishes f nowMs) ∧
    ((s.slot.accept s.counters f nowMs).2.1.complete = true →
      (s.slot.accept s.counters f nowMs).2.1.out = if f.hdr.fragTotal = 1 then f.payload else s.assembled f nowMs)

-- A fragment joins a live set without finishing it while a delivery still stands: a single frame came since the set began.
def Gathering.Overlain (s : Gathering) (f : Frame) (nowMs : UInt32) : Prop :=
  f.hdr.fragTotal ≠ 1 ∧ s.joins f nowMs = true ∧ s.slot.complete = true ∧ ¬s.Finishes f nowMs

theorem claim_complete (r : Reassembler) (counters : Counters) (f : Frame) (nowMs : UInt32) :
    (r.claim counters f nowMs).1.complete = ((r.active && r.sameSet f) && r.complete) := by
  rcases claim_parts r counters f nowMs with ⟨joined,kept⟩ | ⟨apart,freed,_,_,begun⟩
  · rw [kept,joined,Bool.true_and]
  · rw [begun,apart]
    rfl

theorem single_taken (r : Reassembler) (counters : Counters) (f : Frame) (nowMs : UInt32) (single : f.hdr.fragTotal = 1)
    (taken : (r.accept counters f nowMs).1 = .ok) :
    (r.accept counters f nowMs).2.1.complete = true ∧ (r.accept counters f nowMs).2.1.out = f.payload := by
  unfold Reassembler.accept Reassembler.acceptSingle at taken ⊢
  split at taken
  · cases taken
  · rename_i some_
    rw [if_neg some_]
    split at taken
    · cases taken
    · rename_i inside
      rw [if_neg inside,if_pos single]
      split at taken
      · cases taken
      · rename_i fits
        rw [if_neg fits]
        exact ⟨rfl,rfl⟩

-- A fragment taken: the set has it, and whether the set is whole by now decides what is delivered.
theorem fragment_taken (s : Gathering) (mapped : Mapped s) (short : Short s.slot) (f : Frame) (nowMs : UInt32) (longer : f.hdr.fragTotal ≠ 1)
    (taken : (s.slot.accept s.counters f nowMs).1 = .ok) :
    (s.Finishes f nowMs → (s.slot.accept s.counters f nowMs).2.1.complete = true ∧
      (s.slot.accept s.counters f nowMs).2.1.out = s.assembled f nowMs) ∧
    (¬s.Finishes f nowMs → (s.slot.accept s.counters f nowMs).2.1.complete = (s.joins f nowMs && s.slot.complete)) := by
  obtain ⟨several,below,counted,claimed,placed⟩ := accept_several s.slot s.counters f nowMs longer taken
  obtain ⟨tidy,live⟩ := tick_mapped mapped s.counters nowMs _ (.inr rfl)
  have whole := claim_short (tick_short short s.counters nowMs) counted f nowMs several
  have complete := claim_complete (s.slot.tick s.counters nowMs).1 counted f nowMs
  obtain ⟨key,_,claimedLive⟩ := claim_live live counted f nowMs several
  rw [placed] at taken ⊢
  obtain ⟨total,put,placing,left⟩ := place_taken _ claimed f (claim_tidy tidy counted f nowMs).windows whole taken
  have putLive := placed_live claimedLive placing key.symm total below
  have own : (if (s.slot.tick s.counters nowMs).1.active && (s.slot.tick s.counters nowMs).1.sameSet f then s.accepted else []) ++ [f] =
      s.setOf f nowMs := by
    unfold Gathering.setOf Gathering.joins
    split <;> rfl
  rw [own] at putLive
  have finished : put.filled = true ↔ s.Finishes f nowMs := by
    rw [filled_iff putLive,placing.total,← total]
    exact Iff.rfl
  constructor
  · intro finishes
    rw [left,if_pos (finished.mpr finishes)]
    refine ⟨rfl,?_⟩
    have pieces : ∀ i < put.total.toNat, latest (s.setOf f nowMs) i = some (put.piece i) := by
      intro i inside
      rw [putLive.mapped i,if_pos (List.all_eq_true.mp (finished.mpr finishes) i (List.mem_range.mpr inside))]
    rw [assemble_out]
    unfold Gathering.assembled
    rw [total,← placing.total]
    refine List.flatMap_congr ?_
    intro i member
    rw [pieces i (List.mem_range.mp member)]
    rfl
  · intro unfinished
    rw [left,if_neg (fun filled => unfinished (finished.mp filled)),placing.complete,complete]
    unfold Gathering.joins
    dsimp only
    cases joined : (s.slot.tick s.counters nowMs).1.active && (s.slot.tick s.counters nowMs).1.sameSet f with
    | false => rfl
    | true =>
      have going : (s.slot.tick s.counters nowMs).1 = s.slot := by
        unfold Reassembler.tick at joined ⊢
        split at joined
        · cases joined
        · rename_i fresh
          rw [if_neg fresh]
      rw [going]

theorem describes_iff (s : Gathering) (mapped : Mapped s) (short : Short s.slot) (f : Frame) (nowMs : UInt32)
    (taken : (s.slot.accept s.counters f nowMs).1 = .ok) : s.Describes f nowMs ↔ ¬s.Overlain f nowMs := by
  unfold Gathering.Describes Gathering.Overlain
  by_cases single : f.hdr.fragTotal = 1
  · obtain ⟨complete,out⟩ := single_taken s.slot s.counters f nowMs single taken
    rw [complete,out,if_pos single]
    exact ⟨fun _ overlain => overlain.1 single,fun _ => ⟨⟨fun _ => .inl single,fun _ => rfl⟩,fun _ => rfl⟩⟩
  · obtain ⟨whole,part⟩ := fragment_taken s mapped short f nowMs single taken
    rw [if_neg single]
    by_cases finishes : s.Finishes f nowMs
    · obtain ⟨complete,out⟩ := whole finishes
      rw [complete,out]
      exact ⟨fun _ overlain => overlain.2.2.2 finishes,fun _ => ⟨⟨fun _ => .inr finishes,fun _ => rfl⟩,fun _ => rfl⟩⟩
    · rw [part finishes]
      constructor
      · rintro ⟨described,_⟩ ⟨_,joins,complete,_⟩
        rcases described.mp (by rw [joins,complete]; rfl) with one | done
        · exact single one
        · exact finishes done
      · intro clear
        have quiet : (s.joins f nowMs && s.slot.complete) = false := by
          rw [Bool.eq_false_iff]
          intro both
          obtain ⟨joins,complete⟩ := Bool.and_eq_true_iff.mp both
          exact clear ⟨single,joins,complete,finishes⟩
        rw [quiet]
        refine ⟨⟨fun on => (by cases on),?_⟩,fun on => (by cases on)⟩
        rintro (one | done)
        · exact absurd one single
        · exact absurd done finishes

-- Every frame accepted along a run.
def Accepting (P : Gathering → Frame → UInt32 → Prop) (pre : List SlotOp) (op : SlotOp) : Prop :=
  ∀ f nowMs, op = .accept f nowMs → ((gathered pre).slot.accept (gathered pre).counters f nowMs).1 = .ok → P (gathered pre) f nowMs

theorem complete_describes_each (ops : List SlotOp) : Always (Accepting Gathering.Describes) ops ↔
    Always (Accepting fun s f nowMs => ¬s.Overlain f nowMs) ops := by
  have same : ∀ pre op, Accepting Gathering.Describes pre op ↔ Accepting (fun s f nowMs => ¬s.Overlain f nowMs) pre op := by
    intro pre op
    have one := fun f nowMs => describes_iff (gathered pre) (gathered_mapped pre) (gathered_short pre) f nowMs
    constructor
    · intro told f nowMs here taken
      exact (one f nowMs taken).mp (told f nowMs here taken)
    · intro told f nowMs here taken
      exact (one f nowMs taken).mpr (told f nowMs here taken)
  unfold Always
  rw [not_iff_not]
  exact ⟨Occurs.imp (fun pre op broken => fun clear => broken ((same pre op).mpr clear)),
    Occurs.imp (fun pre op broken => fun told => broken ((same pre op).mp told))⟩

-- A status of one frame between the first two of three fragments.

def threeFragment (index : UInt8) (payload : Bytes) : Frame :=
  {hdr := {type := .ping,src := nodeGateLink,seq := 7,frag := index <<< 4 ||| 3},payload := payload}

def statusBetween : List SlotOp :=
  [.accept (threeFragment 0 [1,2]) 10,.accept {hdr := {type := .status,src := nodeGateLink,seq := 8,frag := 1},payload := [9]} 20]

theorem stale_delivery_reported : ¬Always (Accepting Gathering.Describes) (statusBetween ++ [.accept (threeFragment 1 [3,4]) 30]) := by
  rw [always_snoc]
  rintro ⟨_,told⟩
  have described := (told _ _ rfl (by decide)).2 (by decide)
  revert described
  decide

end LoraRan.Protocol
