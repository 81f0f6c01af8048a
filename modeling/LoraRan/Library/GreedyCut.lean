import Mathlib

namespace LoraRan.Library.GreedyCut

section
variable {α : Type} (Fits : List α → Prop)

-- How much of the front of a list fits, and no more of it does.
structure Longest (xs : List α) (n : Nat) : Prop where
  inside : n ≤ xs.length
  fits : Fits (xs.take n)
  most : ∀ m, m ≤ xs.length → Fits (xs.take m) → m ≤ n

-- A list cut from the front into the longest parts, until it is used up or the parts are.
inductive Cut : Nat → List α → List (List α) → Prop
  | last (limit : Nat) (xs : List α) (n : Nat) : Longest Fits xs n → xs.length ≤ n ∨ limit = 0 → Cut (limit + 1) xs [xs.take n]
  | more (limit : Nat) (xs : List α) (n : Nat) (rest : List (List α)) :
      Longest Fits xs n → Cut limit (xs.drop n) rest → Cut (limit + 1) xs (xs.take n :: rest)

variable {Fits} {limit : Nat} {xs : List α} {parts : List (List α)}

theorem Cut.some (cut : Cut Fits limit xs parts) : parts ≠ [] := by
  cases cut with
  | last n _ _ => exact List.cons_ne_nil _ _
  | more n rest _ _ => exact List.cons_ne_nil _ _

theorem Cut.few (cut : Cut Fits limit xs parts) : parts.length ≤ limit := by
  induction cut with
  | last limit xs n _ _ => exact Nat.succ_le_succ (Nat.zero_le limit)
  | more limit xs n rest _ _ ih => exact Nat.succ_le_succ ih

theorem Cut.fits (cut : Cut Fits limit xs parts) : ∀ part ∈ parts, Fits part := by
  induction cut with
  | last limit xs n longest _ =>
      intro part inside
      rw [List.mem_singleton.mp inside]
      exact longest.fits
  | more limit xs n rest longest _ ih =>
      intro part inside
      rcases List.mem_cons.mp inside with rfl | later
      · exact longest.fits
      · exact ih part later

theorem Cut.front (cut : Cut Fits limit xs parts) : parts.flatten <+: xs := by
  induction cut with
  | last limit xs n _ _ =>
      rw [List.flatten_singleton]
      exact List.take_prefix n xs
  | more limit xs n rest _ _ ih =>
      rw [List.flatten_cons]
      have whole := (List.prefix_append_right_inj (xs.take n)).mpr ih
      rwa [List.take_append_drop] at whole

-- What fits does so in part.
structure Hereditary (Fits : List α → Prop) : Prop where
  back : ∀ xs ys, Fits (xs ++ ys) → Fits ys

-- The longest front reaches as far as any part that began no later.
theorem Longest.reach (hereditary : Hereditary Fits) {n : Nat} (longest : Longest Fits xs n) (part rest : List α) (fits : Fits part)
    (ends : xs <:+ part ++ rest) : xs.drop n <:+ rest := by
  have own : xs.drop n <:+ part ++ rest := (List.drop_suffix n xs).trans ends
  refine List.suffix_of_suffix_length_le own (List.suffix_append part rest) ?_
  rw [List.length_drop]
  rcases Nat.le_total xs.length rest.length with short | long
  · omega
  · obtain ⟨front,split_⟩ := List.suffix_of_suffix_length_le (List.suffix_append part rest) ends long
    obtain ⟨before,whole⟩ := ends
    have cancelled : before ++ front = part := by
      rw [← split_,← List.append_assoc] at whole
      exact List.append_cancel_right whole
    have inside : Fits front := hereditary.back before front (by rw [cancelled]; exact fits)
    have reached := longest.most front.length (by rw [← split_,List.length_append]; omega) (by rw [← split_,List.take_left]; exact inside)
    rw [← split_,List.length_append]
    omega

-- A list that some parts use up is used up by as many of the longest.
theorem Cut.covers (hereditary : Hereditary Fits) (cut : Cut Fits limit xs parts) (others : List (List α)) (few : others.length ≤ limit)
    (fits : ∀ part ∈ others, Fits part) (ends : xs <:+ others.flatten) : parts.flatten = xs := by
  induction cut generalizing others with
  | last limit xs n longest stops =>
      rw [List.flatten_singleton]
      rcases stops with used | rfl
      · exact List.take_of_length_le used
      · cases others with
        | nil =>
            rw [List.flatten_nil] at ends
            rw [List.eq_nil_of_suffix_nil ends,List.take_nil]
        | cons part rest =>
            have none_ : rest = [] := List.eq_nil_of_length_eq_zero (by rw [List.length_cons] at few; omega)
            subst none_
            rw [List.flatten_cons,List.flatten_nil] at ends
            have reached := longest.reach hereditary part [] (fits part List.mem_cons_self) ends
            have left_ := List.eq_nil_of_suffix_nil reached
            exact List.take_of_length_le (List.drop_eq_nil_iff.mp left_)
  | more limit xs n rest longest _ ih =>
      have later : rest.flatten = xs.drop n := by
        cases others with
        | nil =>
            rw [List.flatten_nil] at ends
            have none_ := List.eq_nil_of_suffix_nil ends
            exact ih [] (Nat.zero_le limit) (fun part inside => by cases inside) (by rw [none_,List.drop_nil]; exact List.nil_suffix)
        | cons part others =>
            rw [List.flatten_cons] at ends
            exact ih others (Nat.le_of_succ_le_succ few) (fun part inside => fits part (List.mem_cons_of_mem _ inside))
              (longest.reach hereditary part others.flatten (fits part List.mem_cons_self) ends)
      rw [List.flatten_cons,later,List.take_append_drop]

end

section
variable {α : Type} (cost : α → Nat)

-- A part holds so many elements, at so much together.
def Holds (most budget : Nat) (xs : List α) : Prop := xs.length ≤ most ∧ (xs.map cost).sum ≤ budget

theorem holds_hereditary (most budget : Nat) : Hereditary (Holds cost most budget) := by
  constructor
  rintro xs ys ⟨few,cheap⟩
  rw [List.length_append] at few
  rw [List.map_append,List.sum_append] at cheap
  exact ⟨by omega,by omega⟩

theorem longest_nil (most budget : Nat) : Longest (Holds cost most budget) [] 0 := by
  refine ⟨Nat.le_refl 0,⟨Nat.zero_le most,Nat.zero_le budget⟩,?_⟩
  intro m inside _
  exact inside

theorem longest_cons {most budget n : Nat} {xs : List α} (x : α) (longest : Longest (Holds cost most budget) xs n) :
    Longest (Holds cost (most + 1) (cost x + budget)) (x :: xs) (n + 1) := by
  constructor
  · exact Nat.succ_le_succ longest.inside
  · obtain ⟨few,cheap⟩ := longest.fits
    refine ⟨Nat.succ_le_succ few,?_⟩
    rw [List.take_succ_cons,List.map_cons,List.sum_cons]
    omega
  · intro m inside fits
    cases m with
    | zero => exact Nat.zero_le _
    | succ m =>
        obtain ⟨few,cheap⟩ := fits
        rw [List.take_succ_cons,List.length_cons] at few
        rw [List.take_succ_cons,List.map_cons,List.sum_cons] at cheap
        exact Nat.succ_le_succ (longest.most m (Nat.le_of_succ_le_succ inside) ⟨by omega,by omega⟩)

theorem longest_stop {most budget : Nat} {x : α} (xs : List α) (full : most = 0 ∨ budget < cost x) :
    Longest (Holds cost most budget) (x :: xs) 0 := by
  refine ⟨Nat.zero_le _,⟨Nat.zero_le most,Nat.zero_le budget⟩,?_⟩
  intro m inside fits
  cases m with
  | zero => exact Nat.le_refl 0
  | succ m =>
      obtain ⟨few,cheap⟩ := fits
      rw [List.take_succ_cons,List.length_cons] at few
      rw [List.take_succ_cons,List.map_cons,List.sum_cons] at cheap
      omega

end

end LoraRan.Library.GreedyCut
