import LoraRan.Protocol.Reassembly

namespace LoraRan.Protocol
open Library.Staging

-- The live set read as a map from index to payload. The stored fragments lie in the staging area and do not overlap,
-- so each can be read and replaced on its own.
def Reassembler.Windows (r : Reassembler) : Prop :=
  (∀ i, r.got i = true → r.fragOff i + r.fragLen i ≤ r.stage.length) ∧
  (∀ i j, r.got i = true → r.got j = true → i ≠ j →
    r.fragOff i + r.fragLen i ≤ r.fragOff j ∨ r.fragOff j + r.fragLen j ≤ r.fragOff i)

-- `after` is `before` with one fragment put at `index`.
structure Placed (before after : Reassembler) (index : Nat) (payload : Bytes) : Prop where
  key : after.key = before.key
  total : after.total = before.total
  active : after.active = before.active
  complete : after.complete = before.complete
  last : after.last = before.last
  windows : after.Windows
  got : after.got = Function.update before.got index true
  here : after.piece index = payload
  elsewhere : ∀ i, i ≠ index → before.got i = true → after.piece i = before.piece i

theorem overwrite_placed (r : Reassembler) (index : Nat) (payload : Bytes) (windows : r.Windows) (present : r.got index = true)
    (same : payload.length = r.fragLen index) :
    Placed r {r with stage := overwrite r.stage (r.fragOff index) payload} index payload := by
  obtain ⟨inside,apart⟩ := windows
  have here := inside index present
  have fits : r.fragOff index + payload.length ≤ r.stage.length := by omega
  refine ⟨rfl,rfl,rfl,rfl,rfl,⟨?_,apart⟩,?_,?_,?_⟩
  · intro i stored
    simp only [overwrite_length _ _ _ fits]
    exact inside i stored
  · funext i
    by_cases equal : i = index
    · subst equal
      simpa using present
    · simp [equal]
  · change window (overwrite r.stage (r.fragOff index) payload) (r.fragOff index) (r.fragLen index) = payload
    rw [← same]
    exact window_overwrite_here _ _ _ (by omega)
  · intro i other stored
    refine window_overwrite_apart _ _ _ _ _ fits ?_
    rw [same]
    exact apart i index stored present other

theorem store_placed (r : Reassembler) (index oldLen : Nat) (payload : Bytes) (windows : r.Windows) :
    Placed r (r.store index oldLen payload) index payload := by
  obtain ⟨inside,apart⟩ := windows
  have stored : ∀ i, i ≠ index → (r.store index oldLen payload).got i = true → r.got i = true := by
    intro i other
    simp [Reassembler.store,other]
  refine ⟨rfl,rfl,rfl,rfl,rfl,⟨?_,?_⟩,rfl,?_,?_⟩
  · intro i present
    by_cases equal : i = index
    · subst equal
      simp [Reassembler.store]
    · have := inside i (stored i equal present)
      simp only [Reassembler.store,Function.update_of_ne equal,List.length_append]
      omega
  · intro i j presentI presentJ differ
    by_cases equalI : i = index
    · have equalJ : j ≠ index := fun equalJ => differ (equalI.trans equalJ.symm)
      have := inside j (stored j equalJ presentJ)
      subst equalI
      right
      simp only [Reassembler.store,Function.update_of_ne equalJ,Function.update_self]
      exact this
    · have := inside i (stored i equalI presentI)
      by_cases equalJ : j = index
      · subst equalJ
        left
        simp only [Reassembler.store,Function.update_of_ne equalI,Function.update_self]
        exact this
      · simp only [Reassembler.store,Function.update_of_ne equalI,Function.update_of_ne equalJ]
        exact apart i j (stored i equalI presentI) (stored j equalJ presentJ) differ
  · simp only [Reassembler.piece,Reassembler.store,Function.update_self]
    exact window_append_new _ _
  · intro i other present
    simp only [Reassembler.piece,Reassembler.store,Function.update_of_ne other]
    exact window_append_old _ _ _ _ (inside i present)

-- A fragment is refused and the set dropped, or put in its place; the last missing one finishes the set.
theorem place_cases (r : Reassembler) (counters : Counters) (f : Frame) (windows : r.Windows) :
    ((r.place counters f).1 ≠ .ok ∧ (r.place counters f).2.1 = r.reset) ∨
    ((r.place counters f).1 = .ok ∧ f.hdr.fragTotal = r.total ∧
      ∃ placed, Placed r placed f.hdr.fragIndex.toNat f.payload ∧
        ((r.place counters f).2.1 = placed ∨ placed.filled = true ∧ (r.place counters f).2.1 = placed.assemble)) := by
  unfold Reassembler.place
  dsimp only
  split
  · exact .inl ⟨by simp [Reassembler.overflow],rfl⟩
  · rename_i sameTotal
    have sameTotal := not_not.mp sameTotal
    split
    · exact .inl ⟨by simp [Reassembler.overflow],rfl⟩
    · split
      · rename_i duplicate
        obtain ⟨present,same⟩ := duplicate
        rw [Reassembler.oldLen,if_pos present] at same
        exact .inr ⟨rfl,sameTotal,_,overwrite_placed r _ _ windows present same,.inl rfl⟩
      · split
        · exact .inl ⟨by simp [Reassembler.overflow],rfl⟩
        · refine .inr ⟨rfl,sameTotal,_,store_placed r _ (r.oldLen f.hdr.fragIndex.toNat) _ windows,?_⟩
          dsimp only
          split
          · exact .inr ⟨by assumption,rfl⟩
          · exact .inl rfl

theorem reset_windows (r : Reassembler) : r.reset.Windows := by
  refine ⟨?_,?_⟩
  · intro i present
    cases present
  · intro i j present
    cases present

theorem assemble_out (r : Reassembler) : r.assemble.out = (List.range r.total.toNat).flatMap r.piece := rfl

-- The slot a fragment is placed in: its own live set, or a set just begun with no fragment yet.
theorem claim_cases (r : Reassembler) (counters : Counters) (f : Frame) (nowMs : UInt32) :
    (r.active = true ∧ r.key = f.setKey ∧ (r.claim counters f nowMs).1 = r) ∨
    ((r.claim counters f nowMs).1.active = true ∧ (r.claim counters f nowMs).1.complete = false ∧
      (r.claim counters f nowMs).1.key = f.setKey ∧ (∀ i, (r.claim counters f nowMs).1.got i = false) ∧
      (r.claim counters f nowMs).1.last = r.last) := by
  unfold Reassembler.claim
  cases live : r.active with
  | false =>
      right
      by_cases complete : r.complete = true
      · simp [complete,Reassembler.reset,Reassembler.begin]
      · simp [complete,live,Reassembler.reset,Reassembler.begin]
  | true =>
      by_cases same : r.sameSet f = true
      · left
        refine ⟨rfl,?_,?_⟩
        · simpa [Reassembler.sameSet] using (beq_iff_eq.mp same).symm
        · simp [live,same]
      · right
        simp [live,same,Reassembler.reset,Reassembler.begin]

-- Everything accept() can do to the slot with a fragment of a longer set.
theorem accept_fragment_cases (r : Reassembler) (counters : Counters) (f : Frame) (nowMs : UInt32) (longer : f.hdr.fragTotal ≠ 1) :
    let r' := (r.tick counters nowMs).1
    ((r.accept counters f nowMs).1 ≠ .ok ∧ ((r.accept counters f nowMs).2.1 = r ∨ (r.accept counters f nowMs).2.1 = r')) ∨
    ((frameHasMac f.hdr.type f.payload = true → f.macVerified = true) ∧
      ∃ counted claimed, r.accept counters f nowMs = (r'.claim counted f nowMs).1.place claimed f) := by
  unfold Reassembler.accept
  dsimp only
  split
  · exact .inl ⟨by simp,.inl rfl⟩
  · split
    · exact .inl ⟨by simp,.inl rfl⟩
    · split
      · exact .inl ⟨by simp,.inr rfl⟩
      · split
        · exact .inl ⟨by simp,.inr rfl⟩
        · rename_i verified
          split
          · exact .inl ⟨by simp,.inr rfl⟩
          · refine .inr ⟨?_,_,_,rfl⟩
            intro due
            simpa [due] using verified

end LoraRan.Protocol
