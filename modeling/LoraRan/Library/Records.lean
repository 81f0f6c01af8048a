import LoraRan.Library.LittleEndian

namespace LoraRan.Library.Records
open LittleEndian

-- Records one after another, each a head whose last byte counts the bytes of the body that follows.
structure Framed (headLen : Nat) (r : Bytes) : Prop where
  headed : 0 < headLen
  sized : r.length = headLen + (u8At r (headLen - 1)).toNat

def readRecords (headLen : Nat) (p : Bytes) : Nat → Nat → Option (List Bytes × Nat)
  | 0,off => some ([],off)
  | count+1,off =>
      if p.length < off + headLen then none
      else
        let len := (u8At p (off + headLen - 1)).toNat
        if p.length < off + headLen + len then none
        else (readRecords headLen p count (off + headLen + len)).map fun (rest,finish) => ((p.drop off).take (headLen + len) :: rest,finish)

theorem u8At_drop (p : Bytes) (off i : Nat) : u8At (p.drop off) i = u8At p (off + i) := by
  simp only [u8At,List.getD_eq_getElem?_getD,List.getElem?_drop]

theorem u8At_take (p : Bytes) (n i : Nat) (inside : i < n) : u8At (p.take n) i = u8At p i := by
  simp only [u8At,List.getD_eq_getElem?_getD,List.getElem?_take_of_lt inside]

theorem framed_cut (headLen : Nat) (p : Bytes) (off : Nat) (headed : 0 < headLen)
    (inside : off + headLen + (u8At p (off + headLen - 1)).toNat ≤ p.length) :
    Framed headLen ((p.drop off).take (headLen + (u8At p (off + headLen - 1)).toNat)) := by
  have last : off + (headLen - 1) = off + headLen - 1 := by omega
  have counted : u8At ((p.drop off).take (headLen + (u8At p (off + headLen - 1)).toNat)) (headLen - 1) = u8At p (off + headLen - 1) := by
    rw [u8At_take _ _ _ (by omega),u8At_drop,last]
  refine ⟨headed,?_⟩
  rw [counted,List.length_take,List.length_drop]
  omega

-- What is read is the buffer, cut into whole records.
theorem readRecords_sound (headLen : Nat) (p : Bytes) (headed : 0 < headLen) (count off : Nat) (rs : List Bytes) (finish : Nat)
    (inside : off ≤ p.length) (read : readRecords headLen p count off = some (rs,finish)) :
    rs.length = count ∧ (∀ r ∈ rs, Framed headLen r) ∧ p.drop off = rs.flatten ++ p.drop finish ∧ finish = off + rs.flatten.length ∧
      finish ≤ p.length := by
  induction count generalizing off rs with
  | zero =>
    cases read
    exact ⟨rfl,fun _ member => (by cases member),rfl,rfl,inside⟩
  | succ count ih =>
    unfold readRecords at read
    dsimp only at read
    split at read; · cases read
    split at read; · cases read
    rename_i whole
    obtain ⟨⟨rest,finish'⟩,later,joined⟩ := Option.map_eq_some_iff.mp read
    simp only [Prod.mk.injEq] at joined
    obtain ⟨rfl,rfl⟩ := joined
    obtain ⟨counted,framed,cut,at_,bound⟩ := ih _ rest (by omega) later
    have first := framed_cut headLen p off headed (by omega)
    have length : ((p.drop off).take (headLen + (u8At p (off + headLen - 1)).toNat)).length =
        headLen + (u8At p (off + headLen - 1)).toNat := by
      rw [List.length_take,List.length_drop]
      omega
    refine ⟨by rw [List.length_cons,counted],?_,?_,?_,bound⟩
    · intro r member
      rcases List.mem_cons.mp member with rfl | later
      · exact first
      · exact framed r later
    · rw [List.flatten_cons,List.append_assoc,← cut,Nat.add_assoc,← List.drop_drop,List.take_append_drop]
    · rw [List.flatten_cons,List.length_append,length]
      omega

-- Whole records are read as they were laid, whatever stands around them.
theorem readRecords_laid (headLen : Nat) (rs : List Bytes) (framed : ∀ r ∈ rs, Framed headLen r) (front rest : Bytes) :
    readRecords headLen (front ++ (rs.flatten ++ rest)) rs.length front.length = some (rs,front.length + rs.flatten.length) := by
  induction rs generalizing front with
  | nil => rfl
  | cons r later ih =>
    obtain ⟨headed,sized⟩ := framed r List.mem_cons_self
    have next := ih (fun o member => framed o (List.mem_cons_of_mem r member)) (front ++ r)
    have joined : front ++ ((r :: later).flatten ++ rest) = (front ++ r) ++ (later.flatten ++ rest) := by
      simp only [List.flatten_cons,List.append_assoc]
    have last : front.length + headLen - 1 = front.length + (headLen - 1) := by omega
    have counted : u8At (front ++ r ++ (later.flatten ++ rest)) (front.length + headLen - 1) = u8At r (headLen - 1) := by
      rw [u8At_append_left _ _ _ (by rw [List.length_append]; omega),u8At_append_right _ _ _ (by omega)]
      congr 1
      omega
    have long : (front ++ r ++ (later.flatten ++ rest)).length = front.length + r.length + (later.flatten ++ rest).length := by
      rw [List.length_append,List.length_append]
    have place : front.length + headLen + (u8At r (headLen - 1)).toNat = (front ++ r).length := by
      rw [List.length_append]
      omega
    have own : ((front ++ r ++ (later.flatten ++ rest)).drop front.length).take (headLen + (u8At r (headLen - 1)).toNat) = r := by
      rw [List.append_assoc,List.drop_left,← sized,List.take_left]
    rw [joined,List.length_cons]
    unfold readRecords
    dsimp only
    rw [counted,if_neg (by omega),if_neg (by omega),own,place,next]
    simp only [Option.map_some,List.flatten_cons,List.length_append,Nat.add_assoc]

end LoraRan.Library.Records
