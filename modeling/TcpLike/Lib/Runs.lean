import Mathlib.Data.Nat.Notation
import Mathlib.Logic.Basic
import Mathlib.Tactic.SplitIfs
import Mathlib.Tactic.TypeStar

/-!
# Runs of a labelled transition system

The steps of a run may each be asked to meet a condition on the state before the step and the
action taken. What every such step keeps, the run keeps (`Run.invariant`).
-/

namespace Transition

variable {S A : Type*} (step : S → A → Option S)

/-- `s` leads to `t` by steps that each meet `ok`. -/
inductive Run (ok : S → A → Prop) : S → S → Prop
  | refl (s : S) : Run ok s s
  | tail {s t u : S} {a : A} : Run ok s t → ok t a → step t a = some u → Run ok s u

/-- The state a list of actions leads to, if each can be taken. -/
def exec : S → List A → Option S
  | s, [] => some s
  | s, a :: as =>
    match step s a with
    | some t => exec t as
    | none => none

/-- `step`, where the condition is met. -/
def guarded (ok : S → A → Prop) [∀ s a, Decidable (ok s a)] (s : S) (a : A) : Option S :=
  if ok s a then step s a else none

variable {step} {ok ok' : S → A → Prop} {s t u : S}

/-- An invariant may be kept with the help of what is known of the run so far. -/
theorem Run.invariant_along {I : S → Prop}
    (hI : ∀ u a v, Run step ok s u → I u → ok u a → step u a = some v → I v)
    (h : Run step ok s t) (hs : I s) : I t := by
  induction h with
  | refl => exact hs
  | tail h hok hstep ih => exact hI _ _ _ h ih hok hstep

theorem Run.invariant {I : S → Prop} (hI : ∀ s a t, I s → ok s a → step s a = some t → I t)
    (h : Run step ok s t) (hs : I s) : I t :=
  h.invariant_along (fun u a v _ => hI u a v) hs

theorem Run.mono (hok : ∀ s a, ok s a → ok' s a) (h : Run step ok s t) : Run step ok' s t := by
  induction h with
  | refl => exact .refl _
  | tail _ ho hstep ih => exact ih.tail (hok _ _ ho) hstep

/-- A condition may be replaced with the help of what is known of the run so far. -/
theorem Run.mono_along (hok : ∀ u a, Run step ok s u → ok u a → ok' u a) (h : Run step ok s t) :
    Run step ok' s t := by
  induction h with
  | refl => exact .refl _
  | tail h ho hstep ih => exact ih.tail (hok _ _ h ho) hstep

theorem Run.trans (h : Run step ok s t) (h' : Run step ok t u) : Run step ok s u := by
  induction h' with
  | refl => exact h
  | tail _ ho hstep ih => exact ih.tail ho hstep

/-- Where what one system does in a step another does in a run, from related states to related
states, it does so in every run. -/
theorem Run.simulate {S' A' : Type*} {step' : S' → A' → Option S'} {ok' : S' → A' → Prop}
    {R : S → S' → Prop} {s' : S'}
    (hR : ∀ u u' a v, Run step ok s u → Run step' ok' s' u' → R u u' → ok u a →
      step u a = some v → ∃ v', Run step' ok' u' v' ∧ R v v')
    (h : Run step ok s t) (hs : R s s') : ∃ t', Run step' ok' s' t' ∧ R t t' := by
  induction h with
  | refl => exact ⟨s', .refl _, hs⟩
  | tail h ho hstep ih =>
    obtain ⟨u', hrun, hu⟩ := ih
    obtain ⟨v', hrun', hv⟩ := hR _ _ _ _ h hrun hu ho hstep
    exact ⟨v', hrun.trans hrun', hv⟩

theorem Run.single {a : A} (ho : ok s a) (h : step s a = some t) : Run step ok s t :=
  (Run.refl s).tail ho h

theorem Run.head {a : A} (ho : ok s a) (h : step s a = some t) (h' : Run step ok t u) :
    Run step ok s u :=
  (Run.single ho h).trans h'

/-- `t` is one allowed step on from `s`. -/
def Next (step : S → A → Option S) (ok : S → A → Prop) (t s : S) : Prop :=
  ∃ a, ok s a ∧ step s a = some t

/-- Where each step lowers a rank, every run comes to an end. -/
theorem acc_of_rank {I : ℕ → S → Prop}
    (hI : ∀ n s t, I n s → Next step ok t s → ∃ m < n, I m t) :
    ∀ (n : ℕ) (s : S), I n s → Acc (Next step ok) s := by
  intro n
  induction n using Nat.strongRecOn with
  | ind n ih =>
    intro s hs
    refine .intro s fun t ht => ?_
    obtain ⟨m, hm, ht⟩ := hI n s t hs ht
    exact ih m hm t ht

theorem exec_append (as bs : List A) (s : S) :
    exec step s (as ++ bs) = (exec step s as).bind (exec step · bs) := by
  induction as generalizing s with
  | nil => rfl
  | cons a as ih =>
    simp only [List.cons_append, exec]
    cases step s a with
    | none => rfl
    | some t => exact ih t

theorem Run.of_exec [∀ s a, Decidable (ok s a)] :
    ∀ {as : List A} {s : S}, exec (guarded step ok) s as = some t → Run step ok s t
  | [], s, h => by
    cases h
    exact .refl _
  | a :: as, s, h => by
    simp only [exec, guarded] at h
    split at h
    · rename_i u hu
      split_ifs at hu with ho
      exact .head ho hu (.of_exec h)
    · cases h

/-- The run of a list of actions, where it comes to `t`. -/
theorem Run.of_actions [∀ s a, Decidable (ok s a)] (as : List A)
    (h : exec (guarded step ok) s as = some t) : Run step ok s t :=
  .of_exec h

/-- A run found by taking the actions of a list. -/
theorem Run.exists_of_exec [∀ s a, Decidable (ok s a)] (as : List A) (p : S → Bool)
    (h : (exec (guarded step ok) s as).any p = true) : ∃ t, Run step ok s t ∧ p t = true := by
  obtain ⟨t, ht, hp⟩ := (Option.any_eq_true ..).1 h
  exact ⟨t, .of_exec ht, hp⟩

/-! ## Runs with a record -/

section Recorded

variable {O R : Type*} (emit : S → A → Option (S × O)) (note : S → A → O → R → R)

/-- The step without what it gives out. -/
def silent (s : S) (a : A) : Option S := (emit s a).map Prod.fst

/-- The step beside a record, which it writes on and does not read. -/
def recorded (x : S × R) (a : A) : Option (S × R) :=
  (emit x.1 a).map fun y => (y.1, note x.1 a y.2 x.2)

variable {emit note} {a : A} {r r' : R}

theorem silent_eq_some : silent emit s a = some t ↔ ∃ o, emit s a = some (t, o) := by
  simp [silent]

theorem recorded_eq_some :
    recorded emit note (s, r) a = some (t, r') ↔
      ∃ o, emit s a = some (t, o) ∧ note s a o r = r' := by
  simp only [recorded, Option.map_eq_some_iff, Prod.mk.injEq]
  constructor
  · rintro ⟨⟨u, o⟩, ho, rfl, hr⟩
    exact ⟨o, ho, hr⟩
  · rintro ⟨o, ho, hr⟩
    exact ⟨(t, o), ho, rfl, hr⟩

/-- A run with a record is a run. -/
theorem Run.forget (h : Run (recorded emit note) (fun x a => ok x.1 a) (s, r) (t, r')) :
    Run (silent emit) ok s t := by
  have key : ∀ x y, Run (recorded emit note) (fun x a => ok x.1 a) x y →
      Run (silent emit) ok x.1 y.1 := by
    intro x y h
    induction h with
    | refl => exact .refl _
    | tail _ hok hstep ih =>
      obtain ⟨o, ho, -⟩ := recorded_eq_some.1 hstep
      exact ih.tail hok (silent_eq_some.2 ⟨o, ho⟩)
  exact key _ _ h

/-- Every run has a record. -/
theorem Run.exists_recorded (h : Run (silent emit) ok s t) (r : R) :
    ∃ r', Run (recorded emit note) (fun x a => ok x.1 a) (s, r) (t, r') := by
  induction h with
  | refl => exact ⟨r, .refl _⟩
  | tail _ hok hstep ih =>
    obtain ⟨r', ih⟩ := ih
    obtain ⟨o, ho⟩ := silent_eq_some.1 hstep
    exact ⟨_, ih.tail hok (recorded_eq_some.2 ⟨o, ho, rfl⟩)⟩

end Recorded

end Transition
