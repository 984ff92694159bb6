import Mathlib.Data.List.Nodup

/-! A partial step followed from a start: it comes to an end, or back to where it
has been. -/
namespace OaGateway.Lib
universe u

section Orbit
variable {Point : Type u}

/-- Where some number of steps leads, if it leads anywhere. -/
def orbit (next : Point → Option Point) (start : Point) : Nat → Option Point
  | 0 => some start
  | steps + 1 => (orbit next start steps).bind next

/-- Some point is met twice. -/
def Revisits (next : Point → Option Point) (start : Point) : Prop :=
  ∃ early late point, early < late ∧ orbit next start early = some point ∧
    orbit next start late = some point

/-- The points on the way from one to another, both included. -/
inductive Trail (next : Point → Option Point) : Point → List Point → Point → Prop where
  | here : Trail next start [start] start
  | step (onward : next start = some middle) (rest : Trail next middle points finish) :
      Trail next start (start :: points) finish

variable {next : Point → Option Point} {start : Point}

theorem orbit_add (early more : Nat) :
    orbit next start (early + more) = (orbit next start early).bind fun point =>
      orbit next point more := by
  induction more with
  | zero => cases orbit next start early <;> rfl
  | succ more ih =>
    rw [← Nat.add_assoc, orbit, ih]
    cases orbit next start early <;> rfl

theorem orbit_step (onward : next start = some middle) (steps : Nat) :
    orbit next start (steps + 1) = orbit next middle steps := by
  rw [Nat.add_comm, orbit_add, orbit, orbit, Option.bind_some, onward, Option.bind_some]

/-- The orbit of a point that is met twice has no end. -/
theorem Revisits.isSome (revisits : Revisits next start) (steps : Nat) :
    (orbit next start steps).isSome = true := by
  obtain ⟨early, late, point, before, first, second⟩ := revisits
  induction steps using Nat.strongRecOn with
  | ind steps ih =>
    by_cases beyond : late ≤ steps
    · obtain ⟨more, rfl⟩ := Nat.exists_eq_add_of_le beyond
      have sooner := ih (early + more) (by omega)
      rw [orbit_add, first] at sooner
      rw [orbit_add, second]
      exact sooner
    · obtain ⟨more, same⟩ := Nat.exists_eq_add_of_lt (Nat.lt_of_not_le beyond)
      rw [same, Nat.add_assoc, orbit_add] at second
      cases here : orbit next start steps with
      | some point => rfl
      | none =>
        rw [here] at second
        cases second

namespace Trail
variable {points : List Point} {finish : Point}

theorem ne_nil (trail : Trail next start points finish) : points ≠ [] := by
  cases trail <;> nofun

/-- The orbit passes the points of a trail one by one. -/
theorem orbit_eq (trail : Trail next start points finish) {steps : Nat}
    (inside : steps < points.length) :
    orbit next start steps = points[steps]? := by
  induction trail generalizing steps with
  | here =>
    obtain rfl : steps = 0 := by simpa using inside
    rfl
  | step onward rest ih =>
    cases steps with
    | zero => rfl
    | succ steps =>
      rw [orbit_step onward, ih (by simpa using inside), List.getElem?_cons_succ]

theorem getLast?_eq (trail : Trail next start points finish) : points.getLast? = some finish := by
  induction trail with
  | here => rfl
  | step onward rest ih => rw [List.getLast?_cons, ih, Option.getD_some]

theorem orbit_last (trail : Trail next start points finish) :
    orbit next start (points.length - 1) = some finish := by
  have inside : points.length - 1 < points.length :=
    Nat.sub_lt (List.length_pos_iff.mpr trail.ne_nil) Nat.one_pos
  rw [trail.orbit_eq inside, ← List.getLast?_eq_getElem?, trail.getLast?_eq]

/-- A trail that ends meets nothing twice. -/
theorem not_revisits (trail : Trail next start points finish) (ends : next finish = none) :
    ¬ Revisits next start := by
  intro revisits
  have onward := revisits.isSome (points.length - 1 + 1)
  rw [orbit, trail.orbit_last, Option.bind_some, ends] at onward
  cases onward

/-- A trail that comes to a point it has passed. -/
theorem revisits (trail : Trail next start points finish) (again : finish ∈ points.dropLast) :
    Revisits next start := by
  obtain ⟨early, inside, same⟩ := List.mem_iff_getElem.mp again
  rw [List.length_dropLast] at inside
  rw [List.getElem_dropLast] at same
  refine ⟨early, points.length - 1, finish, inside, ?_, trail.orbit_last⟩
  rw [trail.orbit_eq (by omega)]
  exact List.getElem?_eq_some_iff.mpr ⟨by omega, same⟩

theorem nodup (trail : Trail next start points finish) (ends : next finish = none) :
    points.Nodup := by
  refine List.nodup_iff_injective_getElem.mpr fun one two same => ?_
  by_contra apart
  have revisits {early late : Fin points.length} (before : early < late)
    (equal : points[early] = points[late]) :
      Revisits next start := by
    refine ⟨early, late, points[late], before, ?_, ?_⟩
    · rw [trail.orbit_eq early.isLt]
      exact List.getElem?_eq_some_iff.mpr ⟨early.isLt, equal⟩
    · rw [trail.orbit_eq late.isLt]
      exact List.getElem?_eq_some_iff.mpr ⟨late.isLt, rfl⟩
  rcases Nat.lt_or_gt_of_ne (Fin.val_ne_of_ne apart) with before | before
  · exact trail.not_revisits ends (revisits before same)
  · exact trail.not_revisits ends (revisits before same.symm)

/-- Two trails that end are the same. -/
theorem unique (trail : Trail next start points finish) (ends : next finish = none)
    (other : Trail next start others goal) (stops : next goal = none) : points = others ∧
      finish = goal := by
  induction trail generalizing others with
  | here =>
    cases other with
    | here => exact ⟨rfl, rfl⟩
    | step onward rest =>
      rw [ends] at onward
      cases onward
  | step onward rest ih =>
    cases other with
    | here =>
      rw [stops] at onward
      cases onward
    | step along more =>
      cases onward.symm.trans along
      obtain ⟨rfl, same⟩ := ih ends more
      exact ⟨rfl, same⟩

end Trail

end Orbit

end OaGateway.Lib
