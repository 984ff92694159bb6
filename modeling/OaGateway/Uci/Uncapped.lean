import OaGateway.Uci.Clean

/-! The walk of the validator with its cap on violations lifted. -/
namespace OaGateway.Uci

open Lib

/-- How a report takes what is found: when it has enough, and what noting does. -/
structure Reporting where
  full : List Violation → Bool
  note : String → ViolationKind → List Violation → List Violation

namespace Reporting

/-- As the validator reports. -/
def capped : Reporting where
  full := Uci.full
  note := Uci.note

/-- Noting always pushes, and no report is full. -/
def uncapped : Reporting where
  full _ := false
  note path kind out := out ++ [⟨path, kind⟩]

section Walk
variable (reporting : Reporting) (crates : Crates) (schema : Schema)

def noteAll (path : String) (kinds : List ViolationKind) (out : List Violation) : List Violation :=
  kinds.foldl (fun out kind => reporting.note path kind out) out

/-- The walk of `Uci.check`, whatever the report does. -/
def check : Nat → Node → String → String → List Violation → List Violation
  | 0, _, _, path, out => if reporting.full out then out else reporting.note path .tooDeep out
  | _ + 1, .simple value, typeName, path, out =>
    if reporting.full out then out
    else reporting.noteAll path (valueFindings crates schema (value.asText crates) typeName) out
  | levels + 1, .complex named fields, typeName, path, out =>
    if reporting.full out then out
    else
      let actual := named.getD typeName
      let out := reporting.noteAll path (abstractFindings schema named actual) out
      match schema.groups actual with
      | .error error => reporting.note path (.unusableType actual error.display) out
      | .ok groups =>
        let out := reporting.noteAll path (nodeFindings groups fields) out
        fields.foldl (checkField (check levels) (groups.flatMap (·.elements)) path) out

def validate (message : Message) : List Violation :=
  reporting.check crates schema (maxDepth + 1) message.body (schema.declaredType message)
    message.name []

end Walk

section Agreement
variable {crates : Crates} {schema : Schema}

/-- With the validator's own report the walk is the validator's. -/
theorem check_capped : capped.check crates schema levels = Uci.check crates schema levels := by
  induction levels with
  | zero => rfl
  | succ levels ih =>
    funext node declared path out
    cases node with
    | simple value => rfl
    | complex typeName fields =>
      rw [check, ih]
      cases room : Uci.full out with
      | true =>
        rw [Uci.check, room]
        exact if_pos room
      | false =>
        rw [check_complex room]
        exact if_neg (by simpa [capped] using room)

theorem validate_capped (message : Message) : capped.validate crates schema message =
    Uci.validate crates schema message := by
  rw [validate, check_capped]
  rfl

end Agreement

section Growth
variable {crates : Crates} {schema : Schema}

theorem noteAll_uncapped (path : String) (kinds : List ViolationKind) (out : List Violation) :
    uncapped.noteAll path kinds out = out ++ kinds.map (⟨path, ·⟩) := by
  induction kinds generalizing out with
  | nil => simp [noteAll]
  | cons kind kinds ih =>
    have step : uncapped.noteAll path (kind :: kinds) out =
      uncapped.noteAll path kinds (out ++ [⟨path, kind⟩]) := rfl
    rw [step, ih]
    simp

theorem check_uncapped_zero : uncapped.check crates schema 0 node declared path out = out ++
    [⟨path, .tooDeep⟩] := by
  cases node <;> rfl

theorem check_uncapped_simple :
    uncapped.check crates schema (levels + 1) (.simple value) declared path out =
      out ++ (valueFindings crates schema (value.asText crates) declared).map (⟨path, ·⟩) :=
  noteAll_uncapped _ _ _

theorem check_uncapped_complex :
    uncapped.check crates schema (levels + 1) (.complex typeName fields) declared path out =
      match schema.groups (typeName.getD declared) with
      | .error error =>
        out ++ (abstractFindings schema typeName (typeName.getD declared)).map (⟨path, ·⟩) ++
          [⟨path, .unusableType (typeName.getD declared) error.display⟩]
      | .ok groups =>
        fields.foldl (checkField (uncapped.check crates schema levels)
          (groups.flatMap (·.elements)) path)
          (out ++ (abstractFindings schema typeName (typeName.getD declared)).map (⟨path, ·⟩) ++
            (nodeFindings groups fields).map (⟨path, ·⟩)) := by
  rw [check]
  simp only [noteAll_uncapped]
  rfl

/-- Without a cap too, a walk only adds to the report. -/
theorem prefix_uncapped (levels : Nat) (node : Node) (declared path : String)
    (out : List Violation) :
    out <+: uncapped.check crates schema levels node declared path out := by
  induction levels generalizing node declared path out with
  | zero =>
    rw [check_uncapped_zero]
    exact List.prefix_append _ _
  | succ levels ih =>
    cases node with
    | simple value =>
      rw [check_uncapped_simple]
      exact List.prefix_append _ _
    | complex typeName fields =>
      rw [check_uncapped_complex]
      split
      · rw [List.append_assoc]
        exact List.prefix_append _ _
      · rename_i groups _
        have walked := prefix_foldl (prefix_checkField ih (groups.flatMap (·.elements)) path) fields
        rw [List.append_assoc]
        exact (List.prefix_append _ _).trans (walked _)

end Growth

section Truncation
variable {crates : Crates} {schema : Schema}

/-- One report is the first entries of another, as many as the cap allows. -/
def Truncates (short long : List Violation) : Prop := short = long.take maxViolations

theorem Truncates.note (cut : Truncates short long) (path : String) (kind : ViolationKind) :
    Truncates (Uci.note path kind short) (long ++ [⟨path, kind⟩]) := by
  rw [Truncates] at cut ⊢
  subst cut
  rw [Uci.note, List.length_take]
  split
  · rename_i room
    have fits : long.length < maxViolations := by omega
    rw [List.take_of_length_le (by omega), List.take_of_length_le (by simp; omega)]
  · rename_i crowded
    exact (List.take_append_of_le_length (by omega)).symm

theorem Truncates.noteAll (cut : Truncates short long) (path : String)
    (kinds : List ViolationKind) :
    Truncates (Uci.noteAll path kinds short) (long ++ kinds.map (⟨path, ·⟩)) := by
  rw [← noteAll_uncapped, Reporting.noteAll, Uci.noteAll]
  exact List.foldl_rel cut fun kind _ _ _ cut => cut.note path kind

/-- A full report is the start of whatever the longer one grows to. -/
theorem Truncates.of_full (cut : Truncates short long) (crowded : Uci.full short = true)
    (grown : long <+: longer) :
    Truncates short longer := by
  obtain ⟨more, rfl⟩ := grown
  rw [Truncates] at cut ⊢
  rw [cut, Uci.full, List.length_take, decide_eq_true_eq] at crowded
  rw [List.take_append_of_le_length (by omega), cut]

theorem Truncates.checkField {walk free : Node → String → String → List Violation → List Violation}
    (below : ∀ {short long}, Truncates short long → ∀ node typeName path,
      Truncates (walk node typeName path short) (free node typeName path long))
    (cut : Truncates short long) (decls : List Element) (path : String) (field : String × Field) :
    Truncates (Uci.checkField walk decls path short field)
      (Uci.checkField free decls path long field) := by
  rw [Uci.checkField, Uci.checkField]
  split
  · exact cut
  · split
    · exact below cut _ _ _
    · exact List.foldl_rel cut fun item _ _ _ cut => below cut _ _ _

/-- The two walks keep one report the start of the other. -/
theorem Truncates.check (cut : Truncates short long) (levels : Nat) (node : Node)
    (declared path : String) :
    Truncates (Uci.check crates schema levels node declared path short)
      (uncapped.check crates schema levels node declared path long) := by
  -- On the levels left; the early exit is sound because the free walk only grows.
  induction levels generalizing node declared path short long with
  | zero =>
    cases room : Uci.full short with
    | true =>
      rw [Uci.check, if_pos room]
      exact cut.of_full room (prefix_uncapped _ _ _ _ _)
    | false =>
      rw [Uci.check, if_neg (by simp [room]), check_uncapped_zero]
      exact cut.note path .tooDeep
  | succ levels ih =>
    cases room : Uci.full short with
    | true =>
      have stopped : Uci.check crates schema (levels + 1) node declared path short = short := by
        cases node <;> rw [Uci.check, if_pos room]
      rw [stopped]
      exact cut.of_full room (prefix_uncapped _ _ _ _ _)
    | false =>
      cases node with
      | simple value =>
        rw [Uci.check, if_neg (by simp [room]), check_uncapped_simple]
        exact cut.noteAll path _
      | complex typeName fields =>
        rw [check_complex room, check_uncapped_complex]
        cases usable : schema.groups (typeName.getD declared) with
        | error error => exact (cut.noteAll path _).note path _
        | ok groups =>
          have started :=
            (cut.noteAll path (abstractFindings schema typeName (typeName.getD declared))).noteAll
            path
            (nodeFindings groups fields)
          exact List.foldl_rel started fun field _ _ _ cut =>
            cut.checkField (fun cut node typeName path => ih cut node typeName path) _ path field

/-- The validator reports the first violations of those the walk finds with no
cap, in their order; none exactly when there are none. -/
theorem validate_truncates (message : Message) :
    Uci.validate crates schema message = (uncapped.validate crates schema message).take
      maxViolations ∧
      (Uci.validate crates schema message = [] ↔ uncapped.validate crates schema message = []) := by
  have cut : Uci.validate crates schema message = (uncapped.validate crates schema message).take
    maxViolations :=
    Truncates.check (show Truncates [] [] from rfl) _ _ _ _
  refine ⟨cut, ?_⟩
  rw [cut, List.take_eq_nil_iff]
  simp [maxViolations]

end Truncation

end Reporting

end OaGateway.Uci
