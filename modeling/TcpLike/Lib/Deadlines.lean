import Mathlib.Data.List.Sort
import Mathlib.Tactic.SplitIfs
import Mathlib.Tactic.TypeStar

/-!
# A queue of deadlines

Deadlines are kept in order, those that fall together in the order they were set (`enqueue`). Where
the items of a first-in first-out queue each wait for one deadline, it need not be their own: the
oldest item goes when the first deadline falls. If the earliest times allowed to the items never
decrease, no item goes before its own (`Served.enqueue`).
-/

namespace Deadlines

variable {α β T : Type*} [LinearOrder T] (key : α → T)

/-- `a` goes in front of the first deadline later than its own. -/
def enqueue (a : α) (l : List α) : List α := l.orderedInsert (fun x y => key x < key y) a

/-- No deadline stands behind a later one. -/
def Ordered (l : List α) : Prop := l.Pairwise fun x y => key x ≤ key y

variable {key} {a : α} {l : List α}

theorem enqueue_cons_of_lt {x : α} (h : key a < key x) :
    enqueue key a (x :: l) = a :: x :: l := by
  rw [enqueue, List.orderedInsert_cons, if_pos h]

theorem enqueue_cons_of_le {x : α} (h : key x ≤ key a) :
    enqueue key a (x :: l) = x :: enqueue key a l := by
  rw [enqueue, List.orderedInsert_cons, if_neg h.not_gt]
  rfl

theorem perm_enqueue (a : α) (l : List α) : (enqueue key a l).Perm (a :: l) :=
  List.perm_orderedInsert _ a l

theorem mem_enqueue {x : α} : x ∈ enqueue key a l ↔ x = a ∨ x ∈ l := by
  rw [(perm_enqueue a l).mem_iff, List.mem_cons]

@[simp] theorem length_enqueue : (enqueue key a l).length = l.length + 1 := by
  rw [(perm_enqueue a l).length_eq, List.length_cons]

theorem Ordered.enqueue (h : Ordered key l) : Ordered key (enqueue key a l) := by
  induction l with
  | nil => exact List.pairwise_singleton _ a
  | cons x l ih =>
    obtain ⟨hx, hl⟩ := List.pairwise_cons.1 h
    rcases lt_or_ge (key a) (key x) with ha | ha
    · rw [enqueue_cons_of_lt ha]
      refine List.pairwise_cons.2 ⟨fun y hy => ?_, h⟩
      rcases List.mem_cons.1 hy with rfl | hy
      · exact ha.le
      · exact ha.le.trans (hx y hy)
    · rw [enqueue_cons_of_le ha]
      refine List.pairwise_cons.2 ⟨fun y hy => ?_, ih hl⟩
      rcases mem_enqueue.1 hy with rfl | hy
      · exact ha
      · exact hx y hy

/-- Behind every deadline no later than its own. -/
theorem sublist_enqueue {x : α} (h : Ordered key l) (hx : x ∈ l) (hxa : key x ≤ key a) :
    [x, a].Sublist (enqueue key a l) := by
  induction l with
  | nil => cases hx
  | cons y l ih =>
    obtain ⟨hy, hl⟩ := List.pairwise_cons.1 h
    have hya : key y ≤ key a := by
      rcases List.mem_cons.1 hx with rfl | hx
      · exact hxa
      · exact (hy x hx).trans hxa
    rw [enqueue_cons_of_le hya]
    rcases List.mem_cons.1 hx with rfl | hx
    · exact (List.singleton_sublist.2 (mem_enqueue.2 (.inl rfl))).cons_cons x
    · exact (ih hl hx).cons y

/-- Before every deadline later than its own. -/
theorem sublist_enqueue_of_lt {x : α} (hx : x ∈ l) (hax : key a < key x) :
    [a, x].Sublist (enqueue key a l) := by
  induction l with
  | nil => cases hx
  | cons y l ih =>
    rcases lt_or_ge (key a) (key y) with hay | hya
    · rw [enqueue_cons_of_lt hay]
      exact (List.singleton_sublist.2 hx).cons_cons a
    · rw [enqueue_cons_of_le hya]
      rcases List.mem_cons.1 hx with rfl | hx
      · exact absurd hax hya.not_gt
      · exact (ih hx).cons y

/-! ## Items that wait -/

section Served

variable (key) (early : β → T) {b : β} {q : List β}

/-- There is an item for each deadline, and none has a deadline before the time it is allowed. -/
def Served : List β → List α → Prop
  | _, [] => True
  | [], _ :: _ => False
  | b :: q, a :: l => early b ≤ key a ∧ Served q l

variable {key early}

@[simp] theorem served_nil : Served key early q [] := by cases q <;> trivial

theorem Served.length_le (h : Served key early q l) : l.length ≤ q.length := by
  induction l generalizing q with
  | nil => exact Nat.zero_le _
  | cons a l ih =>
    cases q with
    | nil => exact h.elim
    | cons b q => exact Nat.succ_le_succ (ih h.2)

/-- Deadlines that are all late enough for every item. -/
theorem Served.of_forall {t : T} (hlen : l.length ≤ q.length) (hq : ∀ b ∈ q, early b ≤ t)
    (hl : ∀ a ∈ l, t ≤ key a) : Served key early q l := by
  induction l generalizing q with
  | nil => exact served_nil
  | cons a l ih =>
    cases q with
    | nil => simp at hlen
    | cons b q =>
      exact ⟨(hq b List.mem_cons_self).trans (hl a List.mem_cons_self),
        ih (Nat.le_of_succ_le_succ hlen) (fun b hb => hq b (List.mem_cons_of_mem _ hb))
          fun a ha => hl a (List.mem_cons_of_mem _ ha)⟩

/-- A deadline dropped only puts off the others. -/
theorem Served.sublist {l' : List α} (h : Served key early q l) (hl : Ordered key l)
    (hs : l'.Sublist l) : Served key early q l' := by
  induction l generalizing q l' with
  | nil =>
    rw [List.sublist_nil.1 hs]
    exact served_nil
  | cons a l ih =>
    obtain ⟨ha, hl⟩ := List.pairwise_cons.1 hl
    cases q with
    | nil => exact h.elim
    | cons b q =>
      cases hs with
      | cons _ hs =>
        cases l' with
        | nil => exact served_nil
        | cons a' l' =>
          exact ⟨h.1.trans (ha a' (hs.subset List.mem_cons_self)),
            ih h.2 hl ((List.sublist_cons_self a' l').trans hs)⟩
      | cons_cons _ hs => exact ⟨h.1, ih h.2 hl hs⟩

/-- A new item joins at the rear, and its deadline the others. -/
theorem Served.enqueue (h : Served key early q l) (hl : Ordered key l)
    (hq : ∀ c ∈ q, early c ≤ early b) (ha : early b ≤ key a) :
    Served key early (q ++ [b]) (enqueue key a l) := by
  induction l generalizing q with
  | nil =>
    cases q with
    | nil => exact ⟨ha, served_nil⟩
    | cons c q => exact ⟨(hq c List.mem_cons_self).trans ha, served_nil⟩
  | cons x l ih =>
    obtain ⟨hx, hl'⟩ := List.pairwise_cons.1 hl
    cases q with
    | nil => exact h.elim
    | cons c q =>
      have hq' : ∀ c ∈ q, early c ≤ early b := fun c hc => hq c (List.mem_cons_of_mem _ hc)
      rcases lt_or_ge (key a) (key x) with hax | hax
      · rw [enqueue_cons_of_lt hax]
        refine ⟨(hq c List.mem_cons_self).trans ha, Served.of_forall (t := key a) ?_ ?_ ?_⟩
        · simpa using h.2.length_le
        · intro c' hc'
          rcases List.mem_append.1 hc' with hc' | hc'
          · exact (hq' c' hc').trans ha
          · exact List.mem_singleton.1 hc' ▸ ha
        · intro y hy
          rcases List.mem_cons.1 hy with rfl | hy
          · exact hax.le
          · exact hax.le.trans (hx y hy)
      · rw [enqueue_cons_of_le hax]
        exact ⟨h.1, ih h.2 hl' hq'⟩

end Served

end Deadlines
