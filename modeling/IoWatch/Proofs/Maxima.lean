import IoWatch.Proofs.Magnitudes
import Mathlib.Order.Bounds.Defs

/-!
# Greatest numbers

Finite numbers are ordered like integers, so of two of them a comparison finds the larger one, and
comparisons along a list find the greatest of all.

## Main results

* `Binary64.lt_iff_of_isGreatest`: a number above the greatest one is above all
* `Binary64.isGreatest_concat`: the greatest of some numbers and one more
* `Binary64.isGreatest_foldl_max`: the greatest of a whole list
-/

namespace IoWatch

namespace Binary64

variable {x y : Binary64} {xs ys : List Binary64}

/-- A number is the greatest one of itself alone. -/
theorem IsFinite.isGreatest (hx : x.IsFinite) : IsGreatest {z | z ∈ [x]} x := by
  refine ⟨List.mem_singleton_self x, fun z hz => ?_⟩
  rw [List.mem_singleton.mp hz]
  exact hx.le_rfl

/-- A number is above the greatest of some numbers if it is above all of them. -/
theorem lt_iff_of_isGreatest (hx : IsGreatest {z | z ∈ xs} x) (hxs : ∀ z ∈ xs, z.IsFinite)
    (hy : y.IsFinite) : x < y ↔ ∀ z ∈ xs, z < y := by
  obtain ⟨hmem, hupper⟩ := hx
  constructor
  · intro hlt z hz
    exact (hxs z hz).lt_of_le_of_lt (hxs _ hmem) hy (hupper hz) hlt
  · intro hall
    exact hall _ hmem

/-- The larger one of the greatest of some numbers and one more number is the greatest of all. -/
theorem isGreatest_concat (hx : IsGreatest {z | z ∈ xs} x) (hxs : ∀ z ∈ xs, z.IsFinite)
    (hy : y.IsFinite) : IsGreatest {z | z ∈ xs ++ [y]} (if x < y then y else x) := by
  split
  next hlt =>
    rw [lt_iff_of_isGreatest hx hxs hy] at hlt
    refine ⟨List.mem_concat_self, fun z hz => ?_⟩
    rcases List.mem_append.mp hz with hz | hz
    · exact (hxs z hz).le_of_lt hy (hlt z hz)
    · rw [List.mem_singleton.mp hz]
      exact hy.le_rfl
  next hnot =>
    obtain ⟨hmem, hupper⟩ := hx
    refine ⟨List.mem_append_left _ hmem, fun z hz => ?_⟩
    rcases List.mem_append.mp hz with hz | hz
    · exact hupper hz
    · rw [List.mem_singleton.mp hz]
      exact ((hxs _ hmem).not_lt_iff hy).mp hnot

theorem IsFinite.max_eq (hx : x.IsFinite) (hy : y.IsFinite) :
    x.max y = if x < y then y else x := by
  obtain ⟨s, m, e, c, rfl⟩ := hx
  obtain ⟨s', m', e', c', rfl⟩ := hy
  rfl

/-- The maximum along a list of finite numbers is the greatest of the numbers of before and the
list. -/
theorem isGreatest_foldl_max (hx : IsGreatest {z | z ∈ xs} x) (hxs : ∀ z ∈ xs, z.IsFinite)
    (hys : ∀ z ∈ ys, z.IsFinite) : IsGreatest {z | z ∈ xs ++ ys} (ys.foldl Binary64.max x) := by
  induction ys generalizing x xs with
  | nil => rwa [List.append_nil]
  | cons y ys ih =>
    obtain ⟨hy, hys⟩ := List.forall_mem_cons.mp hys
    rw [List.foldl_cons, (hxs x hx.1).max_eq hy, List.append_cons]
    refine ih (isGreatest_concat hx hxs hy) ?_ hys
    rw [List.forall_mem_append, List.forall_mem_singleton]
    exact ⟨hxs, hy⟩

end Binary64

end IoWatch
