import Mathlib.Data.List.Induction

namespace LoraRan.Library.Occurrence

universe u

variable {α : Type u} {P Q : List α → α → Prop}

-- An item of a sequence that stands in a relation to those before it.
def Occurs (P : List α → α → Prop) (items : List α) : Prop := ∃ pre item post, items = pre ++ item :: post ∧ P pre item

theorem occurs_nil : ¬Occurs P [] := by
  rintro ⟨pre,item,post,split_,_⟩
  exact absurd split_.symm (List.append_ne_nil_of_right_ne_nil pre (List.cons_ne_nil item post))

theorem occurs_snoc (items : List α) (last : α) : Occurs P (items ++ [last]) ↔ Occurs P items ∨ P items last := by
  constructor
  · rintro ⟨pre,item,post,split_,holds⟩
    rcases List.eq_nil_or_concat post with rfl | ⟨init,end_,rfl⟩
    · obtain ⟨rfl,one⟩ := List.append_inj' split_ rfl
      rw [List.singleton_inj.mp one]
      exact .inr holds
    · rw [List.concat_eq_append,← List.cons_append,← List.append_assoc] at split_
      obtain ⟨whole,_⟩ := List.append_inj' split_ rfl
      exact .inl ⟨pre,item,init,whole,holds⟩
  · rintro (⟨pre,item,post,rfl,holds⟩ | holds)
    · exact ⟨pre,item,post ++ [last],by rw [List.append_assoc,List.cons_append],holds⟩
    · exact ⟨items,last,[],rfl,holds⟩

theorem occurs_one (item : α) : Occurs P [item] ↔ P [] item := by
  have both := occurs_snoc (P := P) [] item
  rw [List.nil_append] at both
  exact both.trans ⟨fun either => either.resolve_left occurs_nil,.inr⟩

theorem Occurs.later (items more : List α) (occurs : Occurs P items) : Occurs P (items ++ more) := by
  obtain ⟨pre,item,post,rfl,holds⟩ := occurs
  exact ⟨pre,item,post ++ more,by rw [List.append_assoc,List.cons_append],holds⟩

theorem Occurs.imp {items : List α} (weaker : ∀ pre item, P pre item → Q pre item) (occurs : Occurs P items) : Occurs Q items := by
  obtain ⟨pre,item,post,split_,holds⟩ := occurs
  exact ⟨pre,item,post,split_,weaker pre item holds⟩

-- Every item stands in the relation to those before it.
def Always (P : List α → α → Prop) (items : List α) : Prop := ¬Occurs (fun pre item => ¬P pre item) items

theorem always_nil : Always P [] := occurs_nil

theorem always_snoc (items : List α) (last : α) : Always P (items ++ [last]) ↔ Always P items ∧ P items last := by
  unfold Always
  rw [occurs_snoc,not_or,Classical.not_not]

theorem Always.here (pre post : List α) (item : α) (always : Always P (pre ++ item :: post)) : P pre item :=
  Classical.not_not.mp fun fails => always ⟨pre,item,post,rfl,fails⟩

theorem Always.imp {items : List α} (weaker : ∀ pre item, P pre item → Q pre item) (always : Always P items) : Always Q items := by
  rintro ⟨pre,item,post,rfl,fails⟩
  exact fails (weaker pre item (always.here pre post item))

universe v

variable {β : Type v}

-- Items that change what is observed of a sequence, and the last of them.
def Moves (f : List α → β) (pre : List α) (item : α) : Prop := f (pre ++ [item]) ≠ f pre

def LastMove (f : List α → β) (items pre : List α) (item : α) : Prop :=
  ∃ post, items = pre ++ item :: post ∧ Moves f pre item ∧ ∀ mid, mid <+: post → f (pre ++ item :: mid) = f (pre ++ [item])

theorem LastMove.value {f : List α → β} {items pre : List α} {item : α} (last : LastMove f items pre item) :
    f items = f (pre ++ [item]) := by
  obtain ⟨post,rfl,_,still⟩ := last
  exact still post (List.prefix_refl post)

theorem LastMove.moves {f : List α → β} {items pre : List α} {item : α} (last : LastMove f items pre item) : Moves f pre item := by
  obtain ⟨_,_,moved,_⟩ := last
  exact moved

-- What is no longer observed as at the start was moved by some item, and by a last one.
theorem lastMove_exists (f : List α → β) (items : List α) (changed : f items ≠ f []) : ∃ pre item, LastMove f items pre item := by
  induction items using List.reverseRecOn with
  | nil => exact absurd rfl changed
  | append_singleton items last ih =>
      by_cases moved : f (items ++ [last]) = f items
      · obtain ⟨pre,item,post,rfl,moves,still⟩ := ih (moved ▸ changed)
        refine ⟨pre,item,post ++ [last],by rw [List.append_assoc,List.cons_append],moves,?_⟩
        intro mid isPrefix
        rcases List.prefix_concat_iff.mp isPrefix with whole | shorter
        · rw [whole,← List.cons_append,← List.append_assoc,moved]
          exact still post (List.prefix_refl post)
        · exact still mid shorter
      · refine ⟨items,last,[],rfl,moved,?_⟩
        intro mid isPrefix
        rw [List.prefix_nil.mp isPrefix]

end LoraRan.Library.Occurrence
