import Mathlib.Data.List.MinMax

/-! Traversals that may fail, and choices from a list that only depend on its members. -/

namespace Callisto.Library

variable {α β ε κ : Type} {f g : α → Except ε β} {xs : List α} {ys : List β}

theorem ok_iff {value result : α} : (Except.ok value : Except ε α) = .ok result ↔ result = value :=
  ⟨fun same => (Except.ok.inj same).symm, fun same => congrArg Except.ok same.symm⟩

theorem bind_ok {first : Except ε α} {next : α → Except ε β} {result : β} :
    (first >>= next) = .ok result ↔ ∃ value, first = .ok value ∧ next value = .ok result := by
  cases first with
  | error _ =>
    constructor
    · intro done
      cases done
    · intro found
      cases found.choose_spec.1
  | ok value =>
    constructor
    · intro done
      exact ⟨value, rfl, done⟩
    · intro found
      obtain ⟨_, same, done⟩ := found
      cases same
      exact done

theorem map_ok {first : Except ε α} {function : α → β} {result : β} (done : first.map function = .ok result) :
    ∃ value, first = .ok value ∧ function value = result := by
  cases first with
  | error raised => cases done
  | ok value => exact ⟨value, rfl, Except.ok.inj done⟩

theorem mapM_cons_ok {x : α} : (x :: xs).mapM f = .ok ys ↔ ∃ y values, f x = .ok y ∧ xs.mapM f = .ok values ∧ y :: values = ys := by
  rw [List.mapM_cons, bind_ok]
  constructor
  · intro done
    obtain ⟨y, head, done⟩ := done
    obtain ⟨values, tail, done⟩ := bind_ok.1 done
    exact ⟨y, values, head, tail, Except.ok.inj done⟩
  · intro found
    obtain ⟨y, values, head, tail, rfl⟩ := found
    exact ⟨y, head, bind_ok.2 ⟨values, tail, rfl⟩⟩

theorem forall₂_of_mapM (done : xs.mapM f = .ok ys) : List.Forall₂ (fun x y => f x = .ok y) xs ys := by
  induction xs generalizing ys with
  | nil =>
    cases done
    exact List.Forall₂.nil
  | cons x xs ih =>
    obtain ⟨y, values, head, tail, rfl⟩ := mapM_cons_ok.1 done
    exact List.Forall₂.cons head (ih tail)

theorem mapM_succeeds_iff : (∃ ys, xs.mapM f = .ok ys) ↔ ∀ x ∈ xs, ∃ y, f x = .ok y := by
  induction xs with
  | nil => exact ⟨fun _ _ member => absurd member List.not_mem_nil, fun _ => ⟨[], rfl⟩⟩
  | cons x xs ih =>
    rw [List.forall_mem_cons, ← ih]
    constructor
    · intro found
      obtain ⟨ys, done⟩ := found
      obtain ⟨y, values, head, tail, -⟩ := mapM_cons_ok.1 done
      exact ⟨⟨y, head⟩, ⟨values, tail⟩⟩
    · intro found
      obtain ⟨⟨y, head⟩, ⟨values, tail⟩⟩ := found
      exact ⟨y :: values, mapM_cons_ok.2 ⟨y, values, head, tail, rfl⟩⟩

theorem mem_of_mapM (done : xs.mapM f = .ok ys) (y : β) : y ∈ ys ↔ ∃ x ∈ xs, f x = .ok y := by
  induction xs generalizing ys with
  | nil =>
    cases done
    simp
  | cons x xs ih =>
    obtain ⟨value, values, head, tail, rfl⟩ := mapM_cons_ok.1 done
    constructor
    · intro member
      cases List.mem_cons.1 member with
      | inl same => exact ⟨x, List.mem_cons_self, same ▸ head⟩
      | inr later =>
        obtain ⟨item, member, found⟩ := (ih tail).1 later
        exact ⟨item, List.mem_cons_of_mem _ member, found⟩
    · intro found
      obtain ⟨item, member, found⟩ := found
      cases List.mem_cons.1 member with
      | inl same =>
        subst same
        rw [Except.ok.inj (found.symm.trans head)]
        exact List.mem_cons_self
      | inr later => exact List.mem_cons_of_mem _ ((ih tail).2 ⟨item, later, found⟩)

theorem mapM_agrees (done : xs.mapM f = .ok ys) (agree : ∀ x ∈ xs, ∀ y, f x = .ok y → g x = .ok y) : xs.mapM g = .ok ys := by
  induction xs generalizing ys with
  | nil =>
    cases done
    rfl
  | cons x xs ih =>
    obtain ⟨value, values, head, tail, rfl⟩ := mapM_cons_ok.1 done
    have later := ih tail fun item member => agree item (List.mem_cons_of_mem _ member)
    exact mapM_cons_ok.2 ⟨value, values, agree x List.mem_cons_self value head, later, rfl⟩

theorem argmin_congr [LinearOrder κ] (key : α → κ) {first second : List α} (same : ∀ item, item ∈ first ↔ item ∈ second)
    (distinct : ∀ one ∈ first, ∀ other ∈ first, key one = key other → one = other) : first.argmin key = second.argmin key := by
  cases left : first.argmin key with
  | none =>
    have empty : first = [] := List.argmin_eq_none.1 left
    subst empty
    have empty : second = [] := List.eq_nil_iff_forall_not_mem.2 fun item member => List.not_mem_nil ((same item).2 member)
    rw [empty, List.argmin_nil]
  | some one =>
    have mine : one ∈ first := List.argmin_mem left
    cases right : second.argmin key with
    | none =>
      have empty : second = [] := List.argmin_eq_none.1 right
      exact absurd ((same one).1 mine) (by simp [empty])
    | some other =>
      have theirs : other ∈ first := (same other).2 (List.argmin_mem right)
      have below : key one ≤ key other := List.le_of_mem_argmin theirs left
      have above : key other ≤ key one := List.le_of_mem_argmin ((same one).1 mine) right
      rw [distinct one mine other theirs (le_antisymm below above)]

theorem pairwise_sortedBy [LinearOrder κ] (key : α → κ) (items : List α) :
    (items.mergeSort fun first second => decide (key first ≤ key second)).Pairwise fun first second => key first ≤ key second := by
  have sorted := @List.pairwise_mergeSort _ (fun first second : α => decide (key first ≤ key second))
    (fun first between second below above => decide_eq_true ((of_decide_eq_true below).trans (of_decide_eq_true above)))
    (fun first second => by
      rw [Bool.or_eq_true, decide_eq_true_iff, decide_eq_true_iff]
      exact le_total _ _)
    items
  exact sorted.imp fun below => of_decide_eq_true below

/-- From what the items of two lists give, where each can be told from what it gives, one learns the items that give something. -/
theorem flatMap_eq_iff {give : α → List β} (back : β → α) (tells : ∀ item, ∀ given ∈ give item, back given = item) {first second : List α} :
    first.flatMap give = second.flatMap give ↔
      first.filter (fun item => !(give item).isEmpty) = second.filter fun item => !(give item).isEmpty := by
  have drop : ∀ items : List α, (items.filter fun item => !(give item).isEmpty).flatMap give = items.flatMap give := by
    intro items
    induction items with
    | nil => rfl
    | cons item rest ih =>
      by_cases gives : (!(give item).isEmpty) = true
      · rw [List.filter_cons, if_pos gives, List.flatMap_cons, List.flatMap_cons, ih]
      · have none : give item = [] := by simpa using gives
        rw [List.filter_cons, if_neg gives, List.flatMap_cons, none, ih, List.nil_append]
  constructor
  · intro same
    rw [← drop first, ← drop second] at same
    have givers : ∀ items : List α, ∀ item ∈ items.filter fun item => !(give item).isEmpty, give item ≠ [] := fun items item member => by
      simpa using (List.mem_filter.1 member).2
    have left := givers first
    have right := givers second
    generalize first.filter (fun item => !(give item).isEmpty) = these at same left
    generalize second.filter (fun item => !(give item).isEmpty) = those at same right
    induction these generalizing those with
    | nil =>
      cases those with
      | nil => rfl
      | cons item rest =>
        rw [List.flatMap_nil, List.flatMap_cons, eq_comm, List.append_eq_nil_iff] at same
        exact absurd same.1 (right item List.mem_cons_self)
    | cons item rest ih =>
      cases those with
      | nil =>
        rw [List.flatMap_nil, List.flatMap_cons, List.append_eq_nil_iff] at same
        exact absurd same.1 (left item List.mem_cons_self)
      | cons other others =>
        rw [List.flatMap_cons, List.flatMap_cons] at same
        obtain ⟨given, more, mine⟩ := List.exists_cons_of_ne_nil (left item List.mem_cons_self)
        obtain ⟨taken, much, theirs⟩ := List.exists_cons_of_ne_nil (right other List.mem_cons_self)
        have head : given = taken := by
          rw [mine, theirs] at same
          exact (List.cons.inj same).1
        have equal : item = other := by
          rw [← tells item given (mine ▸ List.mem_cons_self), ← tells other taken (theirs ▸ List.mem_cons_self), head]
        subst equal
        refine congrArg (item :: ·) (ih (fun one member => left one (List.mem_cons_of_mem _ member)) others (List.append_cancel_left same) ?_)
        exact fun one member => right one (List.mem_cons_of_mem _ member)
  · intro same
    rw [← drop first, same, drop]

end Callisto.Library
