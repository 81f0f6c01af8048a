namespace LoraRan.Library.Staging

universe u

variable {α : Type u}

-- A staging area: values are appended, read back through windows and overwritten in place.
def window (stage : List α) (off len : Nat) : List α := (stage.drop off).take len

def overwrite (stage : List α) (off : Nat) (values : List α) : List α :=
  stage.take off ++ values ++ stage.drop (off + values.length)

theorem window_append_old (stage more : List α) (off len : Nat) (inside : off + len ≤ stage.length) :
    window (stage ++ more) off len = window stage off len := by
  unfold window
  rw [List.drop_append_of_le_length (by omega),List.take_append_of_le_length (by rw [List.length_drop]; omega)]

theorem window_append_new (stage more : List α) : window (stage ++ more) stage.length more.length = more := by
  simp [window]

theorem overwrite_length (stage values : List α) (off : Nat) (inside : off + values.length ≤ stage.length) :
    (overwrite stage off values).length = stage.length := by
  simp only [overwrite,List.length_append,List.length_take,List.length_drop]
  omega

theorem window_overwrite_here (stage values : List α) (off : Nat) (inside : off ≤ stage.length) :
    window (overwrite stage off values) off values.length = values := by
  have front : (stage.take off).length = off := by simp [inside]
  unfold window overwrite
  rw [List.append_assoc,List.drop_append_of_le_length (by omega),List.drop_eq_nil_of_le (by omega),List.nil_append,
    List.take_append_of_le_length (Nat.le_refl _),List.take_length]

theorem getElem?_overwrite (stage values : List α) (off i : Nat) (inside : off + values.length ≤ stage.length)
    (outside : i < off ∨ off + values.length ≤ i) : (overwrite stage off values)[i]? = stage[i]? := by
  have front : (stage.take off).length = off := by
    rw [List.length_take]
    omega
  unfold overwrite
  rcases outside with before | after
  · rw [List.append_assoc,List.getElem?_append_left (by omega),List.getElem?_take_of_lt before]
  · rw [List.getElem?_append_right (by rw [List.length_append]; omega),List.length_append,front,List.getElem?_drop]
    congr 1
    omega

theorem window_overwrite_apart (stage values : List α) (off other len : Nat) (inside : off + values.length ≤ stage.length)
    (apart : other + len ≤ off ∨ off + values.length ≤ other) :
    window (overwrite stage off values) other len = window stage other len := by
  unfold window
  apply List.ext_getElem?
  intro i
  by_cases short : i < len
  · rw [List.getElem?_take_of_lt short,List.getElem?_take_of_lt short,List.getElem?_drop,List.getElem?_drop]
    exact getElem?_overwrite stage values off (other + i) inside (by omega)
  · rw [List.getElem?_take_eq_none (by omega),List.getElem?_take_eq_none (by omega)]

-- Equal windows laid side by side, the last one short.
theorem windows_join (values : List α) (chunk count : Nat) :
    (List.range count).flatMap (fun i => window values (i * chunk) chunk) = values.take (count * chunk) := by
  induction count with
  | zero => simp
  | succ count ih =>
      rw [List.range_succ,List.flatMap_append,ih,Nat.succ_mul,List.take_add]
      simp [window]

end LoraRan.Library.Staging
