import Mathlib.Data.List.Perm.Basic
import Mathlib.Order.Lattice

/-! A heap as the list of its entries: what it pops has the least rank. -/

namespace Callisto.Library

variable {α κ : Type} [LinearOrder κ]

def heappop (rank : α → κ) : List α → Option (α × List α)
  | [] => none
  | entry :: heap =>
    match heappop rank heap with
    | none => some (entry, [])
    | some (least, rest) => if rank least < rank entry then some (least, entry :: rest) else some (entry, least :: rest)

variable {rank : α → κ} {heap rest : List α} {least : α}

theorem heappop_eq_none : heappop rank heap = none ↔ heap = [] := by
  cases heap with
  | nil => exact ⟨fun _ => rfl, fun _ => rfl⟩
  | cons entry heap =>
    refine ⟨fun none => ?_, nofun⟩
    unfold heappop at none
    split at none
    · cases none
    · split_ifs at none

theorem heappop_perm (popped : heappop rank heap = some (least, rest)) : heap.Perm (least :: rest) := by
  induction heap generalizing least rest with
  | nil => cases popped
  | cons entry heap ih =>
    unfold heappop at popped
    split at popped
    · next none =>
      cases popped
      rw [heappop_eq_none.1 none]
    · next other others inner =>
      split_ifs at popped
      · cases popped
        exact ((ih inner).cons entry).trans (.swap _ _ _)
      · cases popped
        exact (ih inner).cons entry

theorem heappop_least (popped : heappop rank heap = some (least, rest)) {entry : α} (member : entry ∈ heap) : rank least ≤ rank entry := by
  induction heap generalizing least rest with
  | nil => cases popped
  | cons first heap ih =>
    unfold heappop at popped
    split at popped
    · next none =>
      cases popped
      rw [heappop_eq_none.1 none] at member
      rw [List.mem_singleton.1 member]
    · next other others inner =>
      split_ifs at popped with below
      · cases popped
        cases List.mem_cons.1 member with
        | inl same => exact same ▸ below.le
        | inr later => exact ih inner later
      · cases popped
        cases List.mem_cons.1 member with
        | inl same => rw [same]
        | inr later => exact (not_lt.1 below).trans (ih inner later)

end Callisto.Library
