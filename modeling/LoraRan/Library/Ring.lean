import Mathlib.Logic.Function.Basic

namespace LoraRan.Library.Ring

universe u

variable {α : Type u} (capacity head count : Nat) (cells : Nat → α)

-- Cells on a circle: the oldest stands at `head`, the others follow it. What stands in a cell outside is nobody's.
def slot (i : Nat) : Nat := (head + i) % capacity

def contents : List α := (List.range count).map fun i => cells (slot capacity head i)

@[simp] theorem contents_length : (contents capacity head count cells).length = count := by
  simp [contents]

variable {capacity head count}

theorem slot_injective {i j : Nat} (small : i < capacity) (other : j < capacity) (same : slot capacity head i = slot capacity head j) :
    i = j := by
  unfold slot at same
  have hi := Nat.mod_add_div (head + i) capacity
  have hj := Nat.mod_add_div (head + j) capacity
  rw [same] at hi
  rcases Nat.lt_trichotomy ((head + i) / capacity) ((head + j) / capacity) with less | equal | more
  · have step : capacity * ((head + i) / capacity + 1) ≤ capacity * ((head + j) / capacity) := Nat.mul_le_mul_left _ less
    rw [Nat.mul_add,Nat.mul_one] at step
    omega
  · rw [equal] at hi
    omega
  · have step : capacity * ((head + j) / capacity + 1) ≤ capacity * ((head + i) / capacity) := Nat.mul_le_mul_left _ more
    rw [Nat.mul_add,Nat.mul_one] at step
    omega

theorem slot_next (i : Nat) : slot capacity ((head + 1) % capacity) i = slot capacity head (i + 1) := by
  unfold slot
  rw [Nat.mod_add_mod]
  congr 1
  omega

variable {cells}

theorem contents_congr {other : Nat → α} (agree : ∀ i < count, other (slot capacity head i) = cells (slot capacity head i)) :
    contents capacity head count other = contents capacity head count cells := by
  unfold contents
  refine List.map_congr_left ?_
  intro i member
  exact agree i (List.mem_range.mp member)

-- The oldest gives way, and its cell may take any value.
theorem contents_evict {other : Nat → α} (room : count ≤ capacity) (agree : ∀ s, s ≠ slot capacity head 0 → other s = cells s) :
    contents capacity ((head + 1) % capacity) (count - 1) other = (contents capacity head count cells).drop 1 := by
  unfold contents
  apply List.ext_getElem
  · simp
  · intro i small _
    simp only [List.length_map,List.length_range] at small
    simp only [List.getElem_map,List.getElem_range,List.getElem_drop,slot_next]
    rw [Nat.add_comm 1 i]
    refine agree _ ?_
    intro same
    have zero := slot_injective (by omega) (by omega) same
    omega

theorem contents_push (room : count < capacity) (value : α) :
    contents capacity head (count + 1) (Function.update cells (slot capacity head count) value) = contents capacity head count cells ++ [value] := by
  have kept : contents capacity head count (Function.update cells (slot capacity head count) value) = contents capacity head count cells := by
    refine contents_congr ?_
    intro i inside
    refine Function.update_of_ne ?_ _ _
    intro same
    have equal := slot_injective (by omega) room same
    omega
  rw [← kept]
  simp [contents,List.range_succ]

theorem contents_set {i : Nat} (room : count ≤ capacity) (inside : i < count) (value : α) :
    contents capacity head count (Function.update cells (slot capacity head i) value) = (contents capacity head count cells).set i value := by
  unfold contents
  apply List.ext_getElem
  · simp
  · intro j small _
    simp only [List.length_map,List.length_range] at small
    simp only [List.getElem_map,List.getElem_range,List.getElem_set]
    by_cases here : i = j
    · subst here
      simp
    · rw [if_neg here]
      refine Function.update_of_ne ?_ _ _
      intro same
      exact here (slot_injective (by omega) (by omega) same.symm)

-- A ring written over and over: the cell next to write holds the oldest, and only the last `capacity` items are still there.
structure Recent (capacity : Nat) (cells : Nat → Option α) (next : Nat) (items : List α) : Prop where
  next : next = items.length % capacity
  kept : ∀ j a, items[j]? = some a → items.length ≤ j + capacity → cells (j % capacity) = some a
  only : ∀ c a, cells c = some a → ∃ j, items[j]? = some a ∧ items.length ≤ j + capacity ∧ j % capacity = c

theorem Recent.nil (capacity : Nat) : Recent capacity (fun _ => (none : Option α)) 0 [] := by
  refine ⟨(Nat.zero_mod capacity).symm,?_,?_⟩
  · intro j a at_
    cases at_
  · intro c a at_
    cases at_

theorem mod_apart {j n : Nat} (before : j < n) (near : n < j + capacity) : j % capacity ≠ n % capacity := by
  intro same
  have multiple := Nat.sub_mod_eq_zero_of_mod_eq same.symm
  have zero := Nat.eq_zero_of_dvd_of_lt (Nat.dvd_of_mod_eq_zero multiple) (by omega)
  omega

theorem Recent.push {cells : Nat → Option α} {next : Nat} {items : List α} (recent : Recent capacity cells next items) (a : α) (room : 0 < capacity) :
    Recent capacity (Function.update cells next (some a)) ((next + 1) % capacity) (items ++ [a]) := by
  have next_ := recent.next
  refine ⟨?_,?_,?_⟩
  · rw [next_,Nat.mod_add_mod,List.length_append,List.length_singleton]
  · intro j b at_ near
    rw [List.length_append,List.length_singleton] at near
    rcases Nat.lt_trichotomy j items.length with before | last | after
    · rw [List.getElem?_append_left before] at at_
      have apart := mod_apart before (show items.length < j + capacity by omega)
      rw [Function.update_of_ne (next_ ▸ apart)]
      exact recent.kept j b at_ (by omega)
    · subst last
      rw [List.getElem?_append_right (Nat.le_refl _),Nat.sub_self] at at_
      rw [next_,Function.update_self]
      exact at_
    · rw [List.getElem?_eq_none (by simp; omega)] at at_
      cases at_
  · intro c b at_
    rw [List.length_append,List.length_singleton]
    by_cases here : c = next
    · subst here
      rw [Function.update_self] at at_
      refine ⟨items.length,?_,by omega,next_.symm⟩
      rw [List.getElem?_append_right (Nat.le_refl _),Nat.sub_self]
      exact at_
    · rw [Function.update_of_ne here] at at_
      obtain ⟨j,item,near,place⟩ := recent.only c b at_
      have before : j < items.length := (List.getElem?_eq_some_iff.mp item).1
      refine ⟨j,?_,?_,place⟩
      · rw [List.getElem?_append_left before]
        exact item
      · by_contra oldest
        have whole : items.length = j + capacity := by omega
        rw [whole,Nat.add_mod_right] at next_
        exact here (place.symm.trans next_.symm)

-- What is found in the ring is what is among the last items.
theorem Recent.found {cells : Nat → Option α} {next : Nat} {items : List α} (recent : Recent capacity cells next items) (a : α) (room : 0 < capacity) :
    (∃ c < capacity, cells c = some a) ↔ a ∈ items.drop (items.length - capacity) := by
  constructor
  · rintro ⟨c,_,at_⟩
    obtain ⟨j,item,near,_⟩ := recent.only c a at_
    refine List.mem_of_getElem? (i := j - (items.length - capacity)) ?_
    rw [List.getElem?_drop,show items.length - capacity + (j - (items.length - capacity)) = j by omega]
    exact item
  · intro member
    obtain ⟨i,at_⟩ := List.mem_iff_getElem?.mp member
    rw [List.getElem?_drop] at at_
    exact ⟨_,Nat.mod_lt _ room,recent.kept _ a at_ (by omega)⟩

-- An item with fewer than `capacity` after it is among the last.
theorem mem_recent (before later : List α) (a : α) (few : later.length < capacity) :
    a ∈ (before ++ a :: later).drop ((before ++ a :: later).length - capacity) := by
  have short : (before ++ a :: later).length - capacity ≤ before.length := by
    rw [List.length_append,List.length_cons]
    omega
  rw [List.drop_append_of_le_length short]
  exact List.mem_append_right _ List.mem_cons_self

end LoraRan.Library.Ring
