import Mathlib.Data.List.Forall2
import OaGateway.Lib.Collect
import OaGateway.Lib.Json

/-! A JSON value printed and read again: the same but for the last digits of its
doubles, which a parser may get wrong. -/
namespace OaGateway.Lib.Json

inductive Reread : Value → Value → Prop where
  | null : Reread .null .null
  | bool : Reread (.bool value) (.bool value)
  | string : Reread (.string value) (.string value)
  | number : Reread (.number value) (.number value)
  | double : Reread (.number (.float one)) (.number (.float two))
  | array (each : List.Forall₂ Reread items others) : Reread (.array items) (.array others)
  | object (keys : members.map Prod.fst = others.map Prod.fst)
      (each : List.Forall₂ Reread (members.map Prod.snd) (others.map Prod.snd)) :
      Reread (.object members) (.object others)

namespace Reread
variable {value again : Value}

theorem refl (value : Value) : Reread value value :=
  @Value.rec (fun value => Reread value value) (fun items => List.Forall₂ Reread items items)
    (fun members => List.Forall₂ Reread (members.map Prod.snd) (members.map Prod.snd))
    (fun member => Reread member.2 member.2) .null (fun _ => .bool) (fun _ => .number)
      (fun _ => .string)
    (fun _ each => .array each) (fun _ each => .object rfl each) .nil
      (fun _ _ here later => .cons here later) .nil
    (fun _ _ here later => .cons here later) (fun _ _ same => same) value

theorem members {one two : List (String × Value)} (keys : one.map Prod.fst = two.map Prod.fst)
    (each : List.Forall₂ Reread (one.map Prod.snd) (two.map Prod.snd)) :
    List.Forall₂ (fun left right => left.1 = right.1 ∧ Reread left.2 right.2) one two := by
  induction one generalizing two with
  | nil =>
    cases two with
    | nil => exact .nil
    | cons _ _ => cases keys
  | cons member one ih =>
    cases two with
    | nil => cases keys
    | cons other two =>
      obtain ⟨key, keys⟩ := List.cons.inj keys
      cases each with
      | cons here later => exact .cons ⟨key, here⟩ (ih keys later)

theorem asStr_eq (same : Reread value again) : value.asStr = again.asStr := by
  cases same <;> rfl

theorem of_entries {one two : Option (String × Value)}
    (related : Option.Rel (fun left right => left.1 = right.1 ∧ Reread left.2 right.2) one two) :
    Option.Rel Reread (one.map Prod.snd) (two.map Prod.snd) := by
  cases related with
  | none => exact .none
  | some here => exact .some here.2

/-- A member is read again as the member it was. -/
theorem get (same : Reread value again) (key : String) :
    Option.Rel Reread (value.get key) (again.get key) := by
  cases same with
  | object keys each =>
    refine of_entries (find_forall₂ (members keys each) fun left right related => ?_)
    rw [related.1]
  | _ => exact .none

theorem of_get (same : Reread value again) (held : value.get key = some found) :
    ∃ other, again.get key = some other ∧ Reread found other := by
  have related := same.get key
  rw [held] at related
  generalize again.get key = reading at related
  cases related with
  | some here => exact ⟨_, rfl, here⟩

theorem get_asStr (same : Reread value again) (key : String) :
    (value.get key).bind Value.asStr = (again.get key).bind Value.asStr :=
  bind_of_rel (same.get key) fun _ _ related => related.asStr_eq

end Reread

end OaGateway.Lib.Json
