import LoraRan.Library.Serial

namespace LoraRan.Library.ReplayWindow
open Serial

universe u

variable {κ : Type u}

-- A receiver that lets a number pass only ahead of its mark, in one context at a time. `travelled` is how far the mark came in
-- this context, `used` every context it was ever in, and `ran` every pair that was let pass and acted on.
structure Window (κ : Type u) where
  here : κ
  mark : UInt16
  travelled : Nat
  used : List κ
  ran : List (κ × UInt16)

structure Sound (w : Window κ) : Prop where
  position : w.mark.toNat = w.travelled
  inside : w.here ∈ w.used
  known : ∀ p ∈ w.ran, p.1 ∈ w.used
  behind : ∀ p ∈ w.ran, p.1 = w.here → p.2.toNat ≤ w.travelled
  once : w.ran.Nodup

-- What such a receiver can do: nothing, enter a context it never used, or move its mark, acting on the number or not.
inductive Moves (w : Window κ) : Window κ → Prop
  | stay (used : List κ) : w.used ⊆ used → Moves w {w with used := used}
  | enter (c : κ) (used : List κ) : c ∉ w.used → w.used ⊆ used → c ∈ used → Moves w ⟨c,0,0,used,w.ran⟩
  | pass (seq : UInt16) (used : List κ) (acted : Bool) : newer seq w.mark = true → w.travelled + advance seq w.mark < 65536 → w.used ⊆ used →
      Moves w ⟨w.here,seq,w.travelled + advance seq w.mark,used,if acted then (w.here,seq) :: w.ran else w.ran⟩

-- No pair is acted on twice, as long as no context sees its mark come full circle.
theorem Moves.sound {w w' : Window κ} (moves : Moves w w') (sound : Sound w) : Sound w' := by
  cases moves with
  | stay used grown => exact ⟨sound.position,grown sound.inside,fun p member => grown (sound.known p member),sound.behind,sound.once⟩
  | enter c used fresh grown entered =>
      refine ⟨rfl,entered,fun p member => grown (sound.known p member),?_,sound.once⟩
      intro p member same
      have same : p.1 = c := same
      exact absurd (same ▸ sound.known p member) fresh
  | pass seq used acted ahead bounded grown =>
      obtain ⟨further,_⟩ := newer_advance _ _ ahead
      have now : seq.toNat = w.travelled + advance seq w.mark := by
        rw [position w.mark seq w.travelled (by rw [sound.position]; omega)]
        omega
      have behind : ∀ p ∈ w.ran, p.1 = w.here → p.2.toNat < seq.toNat := by
        intro p member same
        have bound := sound.behind p member same
        omega
      cases acted with
      | false =>
          refine ⟨now,grown sound.inside,fun p member => grown (sound.known p member),?_,sound.once⟩
          intro p member same
          have bound : p.2.toNat < seq.toNat := behind p member same
          change p.2.toNat ≤ w.travelled + advance seq w.mark
          omega
      | true =>
          refine ⟨now,grown sound.inside,?_,?_,?_⟩
          · intro p member
            rcases List.mem_cons.mp member with rfl | old
            · exact grown sound.inside
            · exact grown (sound.known p old)
          · intro p member same
            change p.2.toNat ≤ w.travelled + advance seq w.mark
            rcases List.mem_cons.mp member with rfl | old
            · exact Nat.le_of_eq now
            · have bound := behind p old same
              omega
          · refine List.nodup_cons.mpr ⟨?_,sound.once⟩
            intro repeated
            exact absurd (behind _ repeated rfl) (Nat.lt_irrefl _)

end LoraRan.Library.ReplayWindow
