import OaGateway.Lib.Orbit
import OaGateway.Uci.Schema

/-! Extension chains: what `groups_chain` makes of one that ends, of one that comes
back to itself and of one that leaves the schema. -/
namespace OaGateway.Uci

open Lib

namespace Schema

/-- What a type extends. -/
def baseOf (schema : Schema) (name : String) : Option String :=
  (schema.complexTypes.lookup name).bind fun complex =>
    match complex.content with
    | .groups _ => none
    | .extension base _ => some base

/-- The compositors a type declares itself. -/
def ownGroups (schema : Schema) (name : String) : List Group :=
  match (schema.complexTypes.lookup name).map ComplexType.content with
  | some (.groups groups) => groups
  | some (.extension _ extra) => extra
  | none => []

/-- A type that extends no other. -/
def IsRoot (schema : Schema) (name : String) : Prop :=
  ∃ complex own, schema.complexTypes.lookup name = some complex ∧ complex.content = .groups own

def cycleError (names : List String) : UciError :=
  .xsd ("cyclic extension chain: " ++ " -> ".intercalate names)

/-- A call of `groups_chain` that returns: its result, and the vector it was lent
when it does. -/
inductive Evaluates (schema : Schema) :
    String → List String → Except UciError (List Group) → List String → Prop where
  | cycle (seen : typeName ∈ chain) :
      Evaluates schema typeName chain (.error (cycleError (chain ++ [typeName])))
        (chain ++ [typeName])
  | unknown (fresh : typeName ∉ chain) (absent : schema.complexTypes.lookup typeName = none) :
      Evaluates schema typeName chain (.error (.unknownType typeName)) chain
  | root (fresh : typeName ∉ chain) (found : schema.complexTypes.lookup typeName = some complex)
      (content : complex.content = .groups own) : Evaluates schema typeName chain (.ok own) chain
  | extended (fresh : typeName ∉ chain) (found : schema.complexTypes.lookup typeName = some complex)
      (content : complex.content = .extension base extra)
      (below : Evaluates schema base (chain ++ [typeName]) (.ok out) after) :
      Evaluates schema typeName chain (.ok (out ++ extra)) after.dropLast
  | failed (fresh : typeName ∉ chain) (found : schema.complexTypes.lookup typeName = some complex)
      (content : complex.content = .extension base extra)
      (below : Evaluates schema base (chain ++ [typeName]) (.error error) after) :
      Evaluates schema typeName chain (.error error) after

variable {schema : Schema} {typeName : String} {chain : List String}

theorem baseOf_eq_some (found : schema.complexTypes.lookup typeName = some complex)
    (content : complex.content = .extension base extra) : schema.baseOf typeName = some base := by
  simp only [baseOf, found, content, Option.bind_some]

theorem IsRoot.baseOf_eq (root : schema.IsRoot typeName) : schema.baseOf typeName = none := by
  obtain ⟨complex, own, found, content⟩ := root
  simp only [baseOf, found, content, Option.bind_some]

theorem baseOf_absent (absent : schema.complexTypes.lookup typeName = none) :
    schema.baseOf typeName = none := by
  rw [baseOf, absent, Option.bind_none]

/-- The names still ahead of a walk. -/
def ahead (schema : Schema) (chain : List String) : Finset String :=
  schema.complexTypes.keys \ chain.toFinset

theorem card_ahead (fresh : typeName ∉ chain)
    (found : schema.complexTypes.lookup typeName = some complex) :
    (schema.ahead (chain ++ [typeName])).card < (schema.ahead chain).card := by
  refine Finset.card_lt_card (Finset.ssubset_iff_of_subset ?_ |>.mpr ⟨typeName, ?_, ?_⟩)
  · intro name member
    simp only [ahead, Finset.mem_sdiff, List.mem_toFinset, List.mem_append, not_or] at member ⊢
    exact ⟨member.1, member.2.1⟩
  · simp only [ahead, Finset.mem_sdiff, List.mem_toFinset]
    exact ⟨Finmap.mem_keys.mpr (Finmap.mem_of_lookup_eq_some found), fresh⟩
  · simp [ahead]

/-- A level for every name ahead and one more is enough, whatever the vector holds. -/
theorem evaluates_groupsChain (enough : (schema.ahead chain).card < fuel) :
    ∃ after, Evaluates schema typeName chain (schema.groupsChain fuel typeName chain) after := by
  induction fuel generalizing typeName chain with
  | zero => exact absurd enough (Nat.not_lt_zero _)
  | succ fuel ih =>
    rw [groupsChain]
    split
    · rename_i seen
      exact ⟨_, .cycle (List.contains_iff_mem.mp seen)⟩
    · rename_i fresh
      rw [List.contains_iff_mem] at fresh
      split
      · rename_i absent
        exact ⟨_, .unknown fresh absent⟩
      · rename_i complex found
        split
        · rename_i own content
          exact ⟨_, .root fresh found content⟩
        · rename_i base extra content
          have fewer := card_ahead fresh found
          obtain ⟨after, below⟩ := @ih base (chain ++ [typeName]) (by omega)
          split
          · rename_i out result
            rw [result] at below
            exact ⟨_, .extended fresh found content below⟩
          · rename_i error result
            rw [result] at below
            exact ⟨_, .failed fresh found content below⟩

/-- What a call returns says which way the chain goes. -/
inductive Outcome (schema : Schema) (typeName : String) (chain : List String) :
    Except UciError (List Group) → List String → Prop where
  | complete (trail : Trail schema.baseOf typeName names root) (ends : schema.IsRoot root)
      (fresh : ∀ name ∈ names, name ∉ chain) :
      Outcome schema typeName chain (.ok (names.reverse.flatMap schema.ownGroups)) chain
  | cyclic (trail : Trail schema.baseOf typeName names again)
      (seen : again ∈ chain ++ names.dropLast) :
      Outcome schema typeName chain (.error (cycleError (chain ++ names))) after
  | dangling (trail : Trail schema.baseOf typeName names absent)
      (missing : schema.complexTypes.lookup absent = none) :
      Outcome schema typeName chain (.error (.unknownType absent)) after

theorem ownGroups_eq (found : schema.complexTypes.lookup typeName = some complex)
    (content : complex.content = .groups own) : schema.ownGroups typeName = own := by
  simp only [ownGroups, found, content, Option.map_some]

theorem ownGroups_extension (found : schema.complexTypes.lookup typeName = some complex)
    (content : complex.content = .extension base extra) : schema.ownGroups typeName = extra := by
  simp only [ownGroups, found, content, Option.map_some]

/-- A call walks the chain, and lends back the vector as it was where it succeeds. -/
theorem Evaluates.outcome (run : Evaluates schema typeName chain result after) :
    Outcome schema typeName chain result after := by
  induction run with
  | cycle seen => exact .cyclic .here (List.mem_append_left _ seen)
  | unknown fresh absent => exact .dangling .here absent
  | @root chain name complex own fresh found content =>
    have whole := @Outcome.complete schema name chain [name] name .here
      ⟨complex, own, found, content⟩
      (by simpa using fresh)
    simpa [ownGroups_eq found content] using whole
  | @extended chain name complex base extra out after fresh found content below ih =>
    have onward := baseOf_eq_some found content
    cases ih with
    | @complete names root trail ends apart =>
      have clear : ∀ other ∈ name :: names, other ∉ chain := by
        intro other member inside
        rcases List.mem_cons.mp member with rfl | later
        · exact fresh inside
        · exact apart other later (List.mem_append_left _ inside)
      have whole := Outcome.complete (.step onward trail) ends clear
      simpa [ownGroups_extension found content] using whole
  | @failed chain name complex base extra error after fresh found content below ih =>
    have onward := baseOf_eq_some found content
    cases ih with
    | @cyclic names again _ trail seen =>
      have parts : chain ++ [name] ++ names = chain ++ (name :: names) := by simp
      rw [parts]
      refine .cyclic (.step onward trail) ?_
      rw [List.dropLast_cons_of_ne_nil trail.ne_nil]
      simpa using seen
    | dangling trail missing => exact .dangling (.step onward trail) missing

theorem evaluates_groups (schema : Schema) (typeName : String) :
    ∃ after, Evaluates schema typeName [] (schema.groups typeName) after := by
  have few : (schema.ahead []).card ≤ schema.complexTypes.keys.card :=
    Finset.card_le_card Finset.sdiff_subset
  exact evaluates_groupsChain (by omega)

theorem outcome_groups (schema : Schema) (typeName : String) :
    ∃ after, Outcome schema typeName [] (schema.groups typeName) after := by
  obtain ⟨after, run⟩ := evaluates_groups schema typeName
  exact ⟨after, run.outcome⟩

theorem IsRoot.present (root : schema.IsRoot typeName)
    (absent : schema.complexTypes.lookup typeName = none) :
    False := by
  obtain ⟨complex, own, found, -⟩ := root
  cases absent.symm.trans found

theorem revisits_of_outcome {names : List String}
    (outcome : Outcome schema typeName [] (.error (cycleError names)) after) :
    Revisits schema.baseOf typeName := by
  generalize failed : (.error (cycleError names) : Except UciError (List Group)) = result at outcome
  cases outcome with
  | complete => cases failed
  | cyclic trail seen => exact trail.revisits (by simpa using seen)
  | dangling => cases failed

/-- The chain is followed to its end and no further, whatever it is: it has the
compositors of every type on it, or is reported for the cycle it closes or for
the name it does not find. -/
theorem groups_spec (schema : Schema) (typeName : String) :
    (∀ chain, ∃ result after, Evaluates schema typeName chain result after) ∧
    (∃ after, Evaluates schema typeName [] (schema.groups typeName) after) ∧
    (∀ out, schema.groups typeName = .ok out ↔
      ∃ names root, Trail schema.baseOf typeName names root ∧ names.Nodup ∧ schema.IsRoot root ∧
      out = names.reverse.flatMap schema.ownGroups) ∧
    ((∃ names, schema.groups typeName = .error (cycleError names)) ↔
      Revisits schema.baseOf typeName) ∧
    (∀ absent, schema.groups typeName = .error (.unknownType absent) ↔
      ∃ names, Trail schema.baseOf typeName names absent ∧
        schema.complexTypes.lookup absent = none) ∧
    ∀ error, schema.groups typeName = .error error →
      (∃ names, error = cycleError names) ∨ ∃ absent, error = .unknownType absent := by
  obtain ⟨after, outcome⟩ := outcome_groups schema typeName
  refine ⟨fun chain => ?_, evaluates_groups schema typeName, fun out => ⟨fun same => ?_, ?_⟩,
    ⟨?_, fun revisits => ?_⟩, fun absent => ⟨fun same => ?_, ?_⟩, fun error same => ?_⟩
  · exact ⟨_, evaluates_groupsChain (Nat.lt_succ_self _)⟩
  · rw [same] at outcome
    cases outcome with
    | @complete names root trail ends fresh =>
      exact ⟨names, root, trail, trail.nodup ends.baseOf_eq, ends, rfl⟩
  · rintro ⟨names, root, trail, -, ends, rfl⟩
    generalize schema.groups typeName = result at outcome ⊢
    cases outcome with
    | complete other stops _ =>
      obtain ⟨rfl, rfl⟩ := trail.unique ends.baseOf_eq other stops.baseOf_eq
      rfl
    | cyclic other seen =>
      exact absurd (other.revisits (by simpa using seen)) (trail.not_revisits ends.baseOf_eq)
    | dangling other missing =>
      obtain ⟨rfl, rfl⟩ := trail.unique ends.baseOf_eq other (baseOf_absent missing)
      exact absurd missing ends.present
  · rintro ⟨names, same⟩
    exact revisits_of_outcome (same ▸ outcome)
  · generalize schema.groups typeName = result at outcome ⊢
    cases outcome with
    | complete trail ends _ => exact absurd revisits (trail.not_revisits ends.baseOf_eq)
    | cyclic trail seen => exact ⟨_, rfl⟩
    | dangling trail missing => exact absurd revisits (trail.not_revisits (baseOf_absent missing))
  · rw [same] at outcome
    cases outcome with
    | dangling trail missing => exact ⟨_, trail, missing⟩
  · rintro ⟨names, trail, missing⟩
    generalize schema.groups typeName = result at outcome ⊢
    cases outcome with
    | complete other stops _ =>
      obtain ⟨rfl, rfl⟩ := trail.unique (baseOf_absent missing) other stops.baseOf_eq
      exact absurd missing stops.present
    | cyclic other seen =>
      exact absurd (other.revisits (by simpa using seen))
        (trail.not_revisits (baseOf_absent missing))
    | dangling other absent =>
      obtain ⟨rfl, rfl⟩ := trail.unique (baseOf_absent missing) other (baseOf_absent absent)
      rfl
  · rw [same] at outcome
    cases outcome with
    | cyclic trail seen => exact .inl ⟨_, rfl⟩
    | dangling trail missing => exact .inr ⟨_, rfl⟩

end Schema

end OaGateway.Uci
