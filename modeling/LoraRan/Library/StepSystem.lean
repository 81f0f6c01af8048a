namespace LoraRan.Library.StepSystem

universe u v

variable {σ : Type u} {ι : Type v} {step : σ → ι → σ}

-- States a system reaches when every step it takes is allowed in the state it is taken in.
inductive Reached (step : σ → ι → σ) (allowed : σ → ι → Prop) (start : σ) : σ → Prop
  | refl : Reached step allowed start start
  | step (s : σ) (i : ι) : Reached step allowed start s → allowed s i → Reached step allowed start (step s i)

theorem Reached.invariant {allowed : σ → ι → Prop} {start s : σ} (Inv : σ → Prop) (initial : Inv start)
    (preserved : ∀ s i, Inv s → allowed s i → Inv (step s i)) (path : Reached step allowed start s) : Inv s := by
  induction path with
  | refl => exact initial
  | step s i _ permitted ih => exact preserved s i ih permitted

theorem Reached.weaken {allowed weaker : σ → ι → Prop} {start s : σ} (implied : ∀ s i, allowed s i → weaker s i)
    (path : Reached step allowed start s) : Reached step weaker start s := by
  induction path with
  | refl => exact .refl
  | step s i _ permitted ih => exact .step s i ih (implied s i permitted)

-- A listed run, checked step by step.
def Follows (step : σ → ι → σ) (allowed : σ → ι → Prop) : σ → List ι → Prop
  | _, [] => True
  | s, i :: rest => allowed s i ∧ Follows step allowed (step s i) rest

instance followsDecidable (allowed : σ → ι → Prop) [∀ s i, Decidable (allowed s i)] :
    (s : σ) → (inputs : List ι) → Decidable (Follows step allowed s inputs)
  | _, [] => .isTrue trivial
  | s, i :: rest =>
      match (inferInstance : Decidable (allowed s i)),followsDecidable allowed (step s i) rest with
      | .isTrue first,.isTrue later => .isTrue ⟨first,later⟩
      | .isFalse first,_ => .isFalse fun both => first both.1
      | _,.isFalse later => .isFalse fun both => later both.2

theorem Reached.follow {allowed : σ → ι → Prop} {start : σ} (s : σ) (inputs : List ι)
    (path : Reached step allowed start s) (run : Follows step allowed s inputs) :
    Reached step allowed start (inputs.foldl step s) := by
  induction inputs generalizing s with
  | nil => exact path
  | cons i rest ih => exact ih (step s i) (.step s i path run.1) run.2

theorem Follows.reached {allowed : σ → ι → Prop} {start : σ} {inputs : List ι} (run : Follows step allowed start inputs) :
    Reached step allowed start (inputs.foldl step start) := Reached.follow start inputs .refl run

section
universe w x

variable {τ : Type w} {ο : Type x}

-- A machine that answers each input, and its answers to a list of them.
def answers (respond : σ → ι → ο × σ) : σ → List ι → List ο × σ
  | s, [] => ([],s)
  | s, i :: rest => ((respond s i).1 :: (answers respond (respond s i).2 rest).1,(answers respond (respond s i).2 rest).2)

-- Two machines that answer alike from related states, and stay related, answer alike for ever.
theorem answers_agree {respond : σ → ι → ο × σ} {respond' : τ → ι → ο × τ} (R : σ → τ → Prop)
    (simulates : ∀ s t i, R s t → (respond s i).1 = (respond' t i).1 ∧ R (respond s i).2 (respond' t i).2) (inputs : List ι) (s : σ) (t : τ)
    (related : R s t) : (answers respond s inputs).1 = (answers respond' t inputs).1 ∧ R (answers respond s inputs).2 (answers respond' t inputs).2 := by
  induction inputs generalizing s t with
  | nil => exact ⟨rfl,related⟩
  | cons i rest ih =>
      obtain ⟨same,next⟩ := simulates s t i related
      obtain ⟨later,final⟩ := ih _ _ next
      exact ⟨by rw [answers,answers,same,later],final⟩

-- Inputs that are not kept neither show in what is observed nor move the related state: they may as well not have come.
theorem answers_purged {υ : Type x} {respond : σ → ι → ο × σ} (keep : ι → Bool) (observe : ο → Option υ) (R : σ → σ → Prop)
    (kept : ∀ s t i, keep i = true → R s t → observe (respond s i).1 = observe (respond t i).1 ∧ R (respond s i).2 (respond t i).2)
    (dropped : ∀ s t i, keep i = false → R s t → observe (respond s i).1 = none ∧ R (respond s i).2 t) (inputs : List ι) (s t : σ)
    (related : R s t) : (answers respond s inputs).1.filterMap observe = (answers respond t (inputs.filter keep)).1.filterMap observe := by
  induction inputs generalizing s t with
  | nil => rfl
  | cons i rest ih =>
      rw [answers,List.filterMap_cons]
      cases kind : keep i with
      | true =>
          obtain ⟨same,next⟩ := kept s t i kind related
          rw [List.filter_cons_of_pos kind,answers,List.filterMap_cons,same,ih _ _ next]
      | false =>
          obtain ⟨silent,next⟩ := dropped s t i kind related
          rw [List.filter_cons_of_neg (by simp [kind]),silent]
          exact ih _ _ next

end

end LoraRan.Library.StepSystem
