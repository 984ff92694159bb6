import Mathlib.Data.List.Basic

/-! A log that names each thing once, in the order things first come up, and
stops after some number of them. -/
namespace OaGateway.Lib

variable {α : Type} [DecidableEq α] {cap : Nat}

/-- The first few distinct members of a list. -/
def firstFew (cap : Nat) (list : List α) : List α := list.eraseDups.take cap

theorem eraseDups_concat (list : List α) (last : α) :
    (list ++ [last]).eraseDups = if last ∈ list then list.eraseDups
      else list.eraseDups ++ [last] := by
  rw [List.eraseDups_append, List.removeAll]
  split
  · rename_i old
    simp [old]
  · rename_i new
    simp [new, List.eraseDups_cons]

/-- Once the log is full it does not change. -/
theorem firstFew_full {list : List α} (full : cap ≤ (firstFew cap list).length) (last : α) :
    firstFew cap (list ++ [last]) = firstFew cap list := by
  have long : cap ≤ list.eraseDups.length := by
    rw [firstFew, List.length_take] at full
    omega
  rw [firstFew, firstFew, eraseDups_concat]
  split
  · rfl
  · rw [List.take_append_of_le_length long]

/-- A log that is not full has everything. -/
theorem firstFew_short {list : List α} (room : (firstFew cap list).length < cap) :
    firstFew cap list = list.eraseDups := by
  refine List.take_of_length_le ?_
  rw [firstFew, List.length_take] at room
  omega

theorem firstFew_old {list : List α} (room : (firstFew cap list).length < cap) {last : α}
    (old : last ∈ firstFew cap list) : firstFew cap (list ++ [last]) = firstFew cap list := by
  rw [firstFew_short room, List.mem_eraseDups] at old
  rw [firstFew, firstFew, eraseDups_concat, if_pos old]

theorem firstFew_new {list : List α} (room : (firstFew cap list).length < cap) {last : α}
    (new : last ∉ firstFew cap list) : firstFew cap (list ++ [last]) =
      firstFew cap list ++ [last] := by
  have all := firstFew_short room
  rw [all, List.mem_eraseDups] at new
  rw [firstFew, eraseDups_concat, if_neg new, ← all]
  refine List.take_of_length_le ?_
  rw [List.length_append]
  exact room

/-- Whether the log has filled up. -/
def filled (cap : Nat) (list : List α) : Nat := if (firstFew cap list).length = cap then 1 else 0

theorem filled_eq (cap : Nat) (list : List α) :
    filled cap list = if cap ≤ list.eraseDups.length then 1 else 0 := by
  have reached : (firstFew cap list).length = cap ↔ cap ≤ list.eraseDups.length := by
    rw [firstFew, List.length_take]
    omega
  simp only [filled, reached]

end OaGateway.Lib
