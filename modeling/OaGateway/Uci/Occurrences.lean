import OaGateway.Uci.Visits

/-! How often the children of a node are there, against what the validator says
of it. -/
namespace OaGateway.Uci

open Lib

section Specification

/-- How many children have a name. -/
def occurrences (fields : List (String × Field)) (name : String) : Nat :=
  ((expanded fields).filter fun pair => pair.1 == name).length

def MaxOccurs.Exceeded (max : MaxOccurs) (found : Nat) : Prop :=
  match max with
  | .bounded most => most < found
  | .unbounded => False

/-- A count outside the range of a declaration. -/
def Element.Outside (decl : Element) (found : Nat) : Prop :=
  found < decl.minOccurs ∨ decl.maxOccurs.Exceeded found

/-- A count that is below the range, and not above it as well. -/
def Element.Short (decl : Element) (found : Nat) : Prop :=
  found < decl.minOccurs ∧ ¬ decl.maxOccurs.Exceeded found

/-- The members of a compositor that are there. -/
def Group.present (group : Group) (fields : List (String × Field)) : List Element :=
  group.elements.filter fun decl => occurrences fields decl.name > 0

def Group.names (group : Group) : List String := group.elements.map (·.name)

/-- The element whose count a violation is about. -/
def ViolationKind.about : ViolationKind → Option String
  | .missing element | .tooFew element _ _ | .tooMany element _ _ => some element
  | _ => none

/-- A violation says of an element that its count is out of range. -/
def Reports (kinds : List ViolationKind) (name : String) : Prop :=
  ∃ kind ∈ kinds, kind.about = some name

/-- The occurrence violations of a node, as its declarations ask for them. -/
structure Exact (groups : List Group) (fields : List (String × Field))
    (kinds : List ViolationKind) : Prop where
  undeclared : ∀ name, .undeclared name ∈ kinds ↔
    name ∈ fields.map Prod.fst ∧ ∀ group ∈ groups, name ∉ group.names
  sequence : ∀ group ∈ groups, group.kind = .sequence → ∀ decl ∈ group.elements,
    (Reports kinds decl.name ↔ decl.Outside (occurrences fields decl.name))
  none : ∀ group ∈ groups, group.kind = .choice →
    (.noAlternative group.names ∈ kinds ↔ group.present fields = [])
  many : ∀ group ∈ groups, group.kind = .choice →
    (.manyAlternatives ((group.present fields).map (·.name)) ∈ kinds ↔
      1 < (group.present fields).length)
  one : ∀ group ∈ groups, group.kind = .choice → ∀ chosen, group.present fields = [chosen] →
    (Reports kinds chosen.name ↔ chosen.Outside (occurrences fields chosen.name))
  noOtherCount : ∀ name, Reports kinds name → ∃ group ∈ groups, ∃ decl ∈ group.elements,
    decl.name = name ∧
    (group.kind = .sequence ∨ group.kind = .choice ∧ group.present fields = [decl])
  noOtherNone : ∀ names, .noAlternative names ∈ kinds → ∃ group ∈ groups, group.kind = .choice ∧
    names = group.names
  noOtherMany : ∀ names, .manyAlternatives names ∈ kinds →
    ∃ group ∈ groups, group.kind = .choice ∧ names = (group.present fields).map (·.name)

/-- No branch that is taken alone falls short of its own range. -/
def BranchesFilled (groups : List Group) (fields : List (String × Field)) : Prop :=
  ∀ group ∈ groups, group.kind = .choice → ∀ chosen, group.present fields = [chosen] →
    ¬ chosen.Short (occurrences fields chosen.name)

end Specification

section Counting

theorem occurrences_cons (field : String × Field) (fields : List (String × Field)) (name : String) :
    occurrences (field :: fields) name =
      (if field.1 = name then field.2.nodes.length else 0) + occurrences fields name := by
  have own : (expanded [field]).filter (fun pair => pair.1 == name) =
      if field.1 = name then expanded [field] else [] := by
    by_cases same : field.1 = name
    · simp [expanded, same]
    · simp [expanded, same]
  have parts : expanded (field :: fields) = expanded [field] ++
    expanded fields := by simp [expanded]
  rw [occurrences, parts, List.filter_append, own, List.length_append, occurrences]
  split <;> simp [expanded]

theorem occurrences_of_notMem {fields : List (String × Field)}
    (absent : name ∉ fields.map Prod.fst) :
    occurrences fields name = 0 := by
  induction fields with
  | nil => rfl
  | cons field rest ih =>
    rw [List.map_cons, List.mem_cons, not_or] at absent
    rw [occurrences_cons, ih absent.2, if_neg (Ne.symm absent.1)]

/-- The code's count is the number of children of that name. -/
theorem count_eq_occurrences {fields : List (String × Field)} (apart : (fields.map Prod.fst).Nodup)
    (name : String) : count fields name = occurrences fields name := by
  by_cases named : name ∈ fields.map Prod.fst
  · obtain ⟨field, member, rfl⟩ := List.mem_map.mp named
    rw [count_eq_length apart member]
    clear named
    induction fields with
    | nil => cases member
    | cons head rest ih =>
      rw [List.map_cons, List.nodup_cons] at apart
      rw [occurrences_cons]
      rcases List.mem_cons.mp member with rfl | later
      · rw [if_pos rfl, occurrences_of_notMem apart.1, Nat.add_zero]
      · have other : head.1 ≠ field.1 := fun same => apart.1 (same ▸ List.mem_map_of_mem later)
        rw [if_neg other, Nat.zero_add]
        exact ih apart.2 later
  · rw [occurrences_of_notMem named, count]
    have missing : fields.find? (fun field => field.1 == name) = none := by
      rw [List.find?_eq_none]
      intro field member same
      exact named (List.mem_map.mpr ⟨field, member, by simpa using same⟩)
    rw [missing]

end Counting

section Members

/-- What is wrong with the count of one member of a sequence. -/
def memberFindings (decl : Element) (found : Nat) : List ViolationKind :=
  if found = 0 then if decl.minOccurs ≥ 1 then [.missing decl.name] else []
  else (if found < decl.minOccurs then [.tooFew decl.name decl.minOccurs found] else []) ++
    maxFindings decl.maxOccurs decl.name found

theorem about_maxFindings {max : MaxOccurs} {kind : ViolationKind}
    (found : kind ∈ maxFindings max element number) :
    kind.about = some element := by
  rw [maxFindings.eq_def] at found
  split at found
  · split at found
    · cases List.mem_singleton.mp found
      rfl
    · cases found
  · cases found

theorem about_memberFindings {kind : ViolationKind} (found : kind ∈ memberFindings decl number) :
    kind.about = some decl.name := by
  rw [memberFindings] at found
  split at found
  · split at found
    · cases List.mem_singleton.mp found
      rfl
    · cases found
  · rcases List.mem_append.mp found with few | many
    · split at few
      · cases List.mem_singleton.mp few
        rfl
      · cases few
    · exact about_maxFindings many

theorem reports_maxFindings {max : MaxOccurs} :
    Reports (maxFindings max element number) element ↔ max.Exceeded number := by
  rw [Reports, maxFindings.eq_def, MaxOccurs.Exceeded.eq_def]
  cases max with
  | unbounded => simp
  | bounded most =>
    by_cases above : number > most
    · simp [above, ViolationKind.about]
    · simp [above]

theorem reports_append {first second : List ViolationKind} :
    Reports (first ++ second) name ↔ Reports first name ∨ Reports second name := by
  simp only [Reports, List.mem_append, or_and_right, exists_or]

theorem reports_memberFindings : Reports (memberFindings decl number) decl.name ↔
    decl.Outside number := by
  rw [memberFindings, Element.Outside]
  split
  · rename_i absent
    subst absent
    have low : ¬ decl.maxOccurs.Exceeded 0 := by
      cases decl.maxOccurs <;> simp [MaxOccurs.Exceeded]
    by_cases required : decl.minOccurs ≥ 1
    · simp [Reports, required, ViolationKind.about]
      omega
    · simp [Reports, required, low]
      omega
  · rw [reports_append, reports_maxFindings]
    by_cases few : number < decl.minOccurs
    · simp [Reports, few, ViolationKind.about]
    · simp [Reports, few]

end Members

section Groups
variable {fields : List (String × Field)} {groups : List Group}

theorem present_eq (apart : (fields.map Prod.fst).Nodup) (group : Group) :
    group.elements.filter (fun decl => decide (count fields decl.name > 0)) =
      group.present fields := by
  simp only [Group.present, count_eq_occurrences apart]

/-- What is said of a compositor: each member of a sequence on its own, an
alternation by how many of its branches are taken. -/
theorem mem_groupFindings (apart : (fields.map Prod.fst).Nodup) {group : Group}
    {kind : ViolationKind} :
    kind ∈ groupFindings fields group ↔
      (group.kind = .sequence ∧
        ∃ decl ∈ group.elements, kind ∈ memberFindings decl (occurrences fields decl.name)) ∨
      group.kind = .choice ∧
        ((group.present fields = [] ∧ kind = .noAlternative group.names) ∨
          (∃ chosen, group.present fields = [chosen] ∧
            kind ∈ maxFindings chosen.maxOccurs chosen.name (occurrences fields chosen.name)) ∨
          (1 < (group.present fields).length ∧
            kind = .manyAlternatives ((group.present fields).map (·.name)))) := by
  rw [groupFindings]
  cases group.kind with
  | sequence =>
    simp only [List.mem_flatMap, true_and, reduceCtorEq, false_and, or_false,
      ← count_eq_occurrences apart]
    rfl
  | choice =>
    simp only [reduceCtorEq, false_and, false_or, true_and]
    rw [present_eq apart]
    cases group.present fields with
    | nil => simp [Group.names]
    | cons first rest =>
      cases rest with
      | nil => simp [count_eq_occurrences apart]
      | cons second rest => simp

theorem mem_nodeFindings {kind : ViolationKind} :
    kind ∈ nodeFindings groups fields ↔
      (∃ name, kind = .undeclared name ∧ name ∈ fields.map Prod.fst ∧
        ∀ group ∈ groups, name ∉ group.names) ∨
            ∃ group ∈ groups, kind ∈ groupFindings fields group := by
  have unknown (name : String) :
    (!(groups.flatMap (·.elements)).any fun decl => decl.name == name) = true ↔
      ∀ group ∈ groups, name ∉ group.names := by
    simp only [Bool.not_eq_true', List.any_eq_false, List.mem_flatMap, Group.names,
      List.mem_map, beq_iff_eq, not_exists, not_and, forall_exists_index, and_imp]
    exact ⟨fun each group member decl inside => each decl group member inside,
      fun each decl group member inside => each group member decl inside⟩
  simp only [nodeFindings, List.mem_append, List.mem_map, List.mem_filter, unknown,
    List.mem_flatMap]
  refine or_congr ⟨?_, ?_⟩ Iff.rfl
  · rintro ⟨name, known, rfl⟩
    exact ⟨name, rfl, known⟩
  · rintro ⟨name, rfl, known⟩
    exact ⟨name, known, rfl⟩

/-- The same name is declared by one member of one compositor only. -/
theorem eq_of_name (distinct : ((groups.flatMap (·.elements)).map (·.name)).Nodup)
    {group other : Group} (listed : group ∈ groups) (also : other ∈ groups) {decl twin : Element}
    (inside : decl ∈ group.elements) (within : twin ∈ other.elements)
    (same : twin.name = decl.name) : other = group ∧ twin = decl := by
  have equal : twin = decl :=
    List.inj_on_of_nodup_map distinct (List.mem_flatMap.mpr ⟨other, also, within⟩)
      (List.mem_flatMap.mpr ⟨group, listed, inside⟩) same
  refine ⟨?_, equal⟩
  by_contra different
  have disjoint := (List.nodup_flatMap.mp (List.Nodup.of_map _ distinct)).2
  have symmetric : Std.Symm (Function.onFun List.Disjoint fun group : Group => group.elements) :=
    ⟨fun _ _ separate => separate.symm⟩
  exact disjoint.forall also listed different within (equal ▸ inside)

/-- Whose count a compositor has reported as out of range. -/
theorem reports_groupFindings (apart : (fields.map Prod.fst).Nodup) {group : Group}
    {name : String} :
    Reports (groupFindings fields group) name ↔
      (group.kind = .sequence ∧
        ∃ decl ∈ group.elements, decl.name = name ∧ decl.Outside (occurrences fields decl.name)) ∨
      group.kind = .choice ∧ ∃ chosen, group.present fields = [chosen] ∧ chosen.name = name ∧
        chosen.maxOccurs.Exceeded (occurrences fields chosen.name) := by
  constructor
  · rintro ⟨kind, found, about⟩
    rcases (mem_groupFindings apart).mp found with ⟨ordered, decl, inside, here⟩ |
      ⟨choice, ⟨-, rfl⟩ | ⟨chosen, only, here⟩ | ⟨-, rfl⟩⟩
    · obtain rfl : decl.name = name :=
        Option.some.inj ((about_memberFindings here).symm.trans about)
      exact .inl ⟨ordered, decl, inside, rfl, reports_memberFindings.mp ⟨kind, here, about⟩⟩
    · cases about
    · obtain rfl : chosen.name = name := Option.some.inj ((about_maxFindings here).symm.trans about)
      exact .inr ⟨choice, chosen, only, rfl, reports_maxFindings.mp ⟨kind, here, about⟩⟩
    · cases about
  · rintro (⟨ordered, decl, inside, rfl, outside⟩ | ⟨choice, chosen, only, rfl, above⟩)
    · obtain ⟨kind, here, about⟩ := reports_memberFindings.mpr outside
      exact ⟨kind, (mem_groupFindings apart).mpr (.inl ⟨ordered, decl, inside, here⟩), about⟩
    · obtain ⟨kind, here, about⟩ := reports_maxFindings.mpr above
      exact ⟨kind, (mem_groupFindings apart).mpr (.inr ⟨choice, .inr (.inl ⟨chosen, only, here⟩)⟩),
        about⟩

theorem reports_nodeFindings {name : String} :
    Reports (nodeFindings groups fields) name ↔
      ∃ group ∈ groups, Reports (groupFindings fields group) name := by
  constructor
  · rintro ⟨kind, found, about⟩
    rcases mem_nodeFindings.mp found with ⟨other, rfl, -⟩ | ⟨group, listed, here⟩
    · cases about
    · exact ⟨group, listed, kind, here, about⟩
  · rintro ⟨group, listed, kind, here, about⟩
    exact ⟨kind, mem_nodeFindings.mpr (.inr ⟨group, listed, here⟩), about⟩

theorem mem_elements_of_present {group : Group} (only : group.present fields = [chosen]) :
    chosen ∈ group.elements :=
  (List.mem_filter.mp (only ▸ List.mem_singleton_self chosen)).1

/-- In a sequence, exactly the counts out of range are reported. -/
theorem reports_sequence (apart : (fields.map Prod.fst).Nodup)
    (distinct : ((groups.flatMap (·.elements)).map (·.name)).Nodup) {group : Group}
    (listed : group ∈ groups) (ordered : group.kind = .sequence) {decl : Element}
    (inside : decl ∈ group.elements) :
    Reports (nodeFindings groups fields) decl.name ↔
      decl.Outside (occurrences fields decl.name) := by
  rw [reports_nodeFindings]
  constructor
  · rintro ⟨other, also, reported⟩
    rcases (reports_groupFindings apart).mp reported with ⟨-, twin, within, same, outside⟩ |
      ⟨choice, chosen, only, same, -⟩
    · obtain ⟨-, rfl⟩ := eq_of_name distinct listed also inside within same
      exact outside
    · obtain ⟨rfl, -⟩ := eq_of_name distinct listed also inside (mem_elements_of_present only) same
      rw [ordered] at choice
      cases choice
  · intro outside
    exact ⟨group, listed, (reports_groupFindings apart).mpr
      (.inl ⟨ordered, decl, inside, rfl, outside⟩)⟩

/-- Of a branch taken alone, only a count above its range is reported. -/
theorem reports_chosen (apart : (fields.map Prod.fst).Nodup)
    (distinct : ((groups.flatMap (·.elements)).map (·.name)).Nodup) {group : Group}
    (listed : group ∈ groups) (choice : group.kind = .choice) {chosen : Element}
    (only : group.present fields = [chosen]) :
    Reports (nodeFindings groups fields) chosen.name ↔
      chosen.maxOccurs.Exceeded (occurrences fields chosen.name) := by
  rw [reports_nodeFindings]
  have inside := mem_elements_of_present only
  constructor
  · rintro ⟨other, also, reported⟩
    rcases (reports_groupFindings apart).mp reported with ⟨ordered, twin, within, same, -⟩ |
      ⟨-, twin, alone, same, above⟩
    · obtain ⟨rfl, -⟩ := eq_of_name distinct listed also inside within same
      rw [choice] at ordered
      cases ordered
    · obtain ⟨-, rfl⟩ := eq_of_name distinct listed also inside (mem_elements_of_present alone) same
      exact above
  · intro above
    exact ⟨group, listed, (reports_groupFindings apart).mpr
      (.inr ⟨choice, chosen, only, rfl, above⟩)⟩

theorem noAlternative_mem (apart : (fields.map Prod.fst).Nodup) {names : List String} :
    .noAlternative names ∈ nodeFindings groups fields ↔
      ∃ group ∈ groups, group.kind = .choice ∧ group.present fields = [] ∧ names = group.names := by
  rw [mem_nodeFindings]
  constructor
  · rintro (⟨name, same, -⟩ | ⟨group, listed, found⟩)
    · cases same
    · rcases (mem_groupFindings apart).mp found with ⟨-, decl, -, here⟩ | ⟨choice,
        ⟨nothing, same⟩ | ⟨chosen, -, here⟩ | ⟨-, same⟩⟩
      · cases about_memberFindings here
      · cases same
        exact ⟨group, listed, choice, nothing, rfl⟩
      · cases about_maxFindings here
      · cases same
  · rintro ⟨group, listed, choice, nothing, rfl⟩
    exact .inr ⟨group, listed, (mem_groupFindings apart).mpr (.inr ⟨choice, .inl ⟨nothing, rfl⟩⟩)⟩

theorem manyAlternatives_mem (apart : (fields.map Prod.fst).Nodup) {names : List String} :
    .manyAlternatives names ∈ nodeFindings groups fields ↔
      ∃ group ∈ groups, group.kind = .choice ∧ 1 < (group.present fields).length ∧
        names = (group.present fields).map (·.name) := by
  rw [mem_nodeFindings]
  constructor
  · rintro (⟨name, same, -⟩ | ⟨group, listed, found⟩)
    · cases same
    · rcases (mem_groupFindings apart).mp found with ⟨-, decl, -, here⟩ | ⟨choice,
        ⟨-, same⟩ | ⟨chosen, -, here⟩ | ⟨several, same⟩⟩
      · cases about_memberFindings here
      · cases same
      · cases about_maxFindings here
      · cases same
        exact ⟨group, listed, choice, several, rfl⟩
  · rintro ⟨group, listed, choice, several, rfl⟩
    exact .inr ⟨group, listed, (mem_groupFindings apart).mpr
      (.inr ⟨choice, .inr (.inr ⟨several, rfl⟩)⟩)⟩

theorem undeclared_mem (apart : (fields.map Prod.fst).Nodup) {name : String} :
    .undeclared name ∈ nodeFindings groups fields ↔
      name ∈ fields.map Prod.fst ∧ ∀ group ∈ groups, name ∉ group.names := by
  rw [mem_nodeFindings]
  constructor
  · rintro (⟨other, same, known⟩ | ⟨group, listed, found⟩)
    · cases same
      exact known
    · rcases (mem_groupFindings apart).mp found with ⟨-, decl, -, here⟩ | ⟨-,
        ⟨-, same⟩ | ⟨chosen, -, here⟩ | ⟨-, same⟩⟩
      · cases about_memberFindings here
      · cases same
      · cases about_maxFindings here
      · cases same
  · intro known
    exact .inl ⟨name, rfl, known⟩

/-- The findings on a node are those its declarations ask for, but for a branch
taken alone that falls short. -/
theorem exact_iff_branchesFilled (apart : (fields.map Prod.fst).Nodup)
    (distinct : ((groups.flatMap (·.elements)).map (·.name)).Nodup) :
    Exact groups fields (nodeFindings groups fields) ↔ BranchesFilled groups fields := by
  constructor
  · intro exact group listed choice chosen only short
    have reported := (exact.one group listed choice chosen only).mpr (.inl short.1)
    exact short.2 ((reports_chosen apart distinct listed choice only).mp reported)
  · intro filled
    refine ⟨fun name => undeclared_mem apart, fun group listed ordered decl inside =>
      reports_sequence apart distinct listed ordered inside, ?_, ?_, ?_, ?_, ?_, ?_⟩
    · intro group listed choice
      rw [noAlternative_mem apart]
      constructor
      · rintro ⟨other, also, -, nothing, same⟩
        cases members : group.elements with
        | nil => simp [Group.present, members]
        | cons decl rest =>
          have inside : decl ∈ group.elements := members ▸ List.mem_cons_self
          have shared : decl.name ∈ other.names := same ▸ List.mem_map_of_mem inside
          obtain ⟨twin, within, alike⟩ := List.mem_map.mp shared
          obtain ⟨rfl, -⟩ := eq_of_name distinct listed also inside within alike
          exact nothing
      · intro nothing
        exact ⟨group, listed, choice, nothing, rfl⟩
    · intro group listed choice
      rw [manyAlternatives_mem apart]
      constructor
      · rintro ⟨other, also, -, several, same⟩
        have count := congrArg List.length same
        simp only [List.length_map] at count
        omega
      · intro several
        exact ⟨group, listed, choice, several, rfl⟩
    · intro group listed choice chosen only
      rw [reports_chosen apart distinct listed choice only, Element.Outside]
      refine ⟨.inr, ?_⟩
      rintro (few | above)
      · by_contra low
        exact filled group listed choice chosen only ⟨few, low⟩
      · exact above
    · intro name reported
      obtain ⟨group, listed, here⟩ := reports_nodeFindings.mp reported
      rcases (reports_groupFindings apart).mp here with ⟨ordered, decl, inside, same, -⟩ |
        ⟨choice, chosen, only, same, -⟩
      · exact ⟨group, listed, decl, inside, same, .inl ordered⟩
      · exact ⟨group, listed, chosen, mem_elements_of_present only, same, .inr ⟨choice, only⟩⟩
    · intro names reported
      obtain ⟨group, listed, choice, -, same⟩ := (noAlternative_mem apart).mp reported
      exact ⟨group, listed, choice, same⟩
    · intro names reported
      obtain ⟨group, listed, choice, -, same⟩ := (manyAlternatives_mem apart).mp reported
      exact ⟨group, listed, choice, same⟩

end Groups

section Messages
variable {crates : Crates} {schema : Schema}

/-- Two lists say the same about occurrences. -/
structure SameOccurrences (kinds others : List ViolationKind) : Prop where
  undeclared : ∀ name, ViolationKind.undeclared name ∈ kinds ↔ .undeclared name ∈ others
  none : ∀ names, ViolationKind.noAlternative names ∈ kinds ↔ .noAlternative names ∈ others
  many : ∀ names, ViolationKind.manyAlternatives names ∈ kinds ↔ .manyAlternatives names ∈ others
  reports : ∀ name, Reports kinds name ↔ Reports others name

theorem SameOccurrences.symm (same : SameOccurrences kinds others) : SameOccurrences others kinds :=
  ⟨fun name => (same.undeclared name).symm, fun names => (same.none names).symm,
    fun names => (same.many names).symm, fun name => (same.reports name).symm⟩

theorem SameOccurrences.exact (same : SameOccurrences kinds others)
    (exact : Exact groups fields kinds) :
    Exact groups fields others where
  undeclared name := (same.undeclared name).symm.trans (exact.undeclared name)
  sequence group listed ordered decl inside :=
    (same.reports decl.name).symm.trans (exact.sequence group listed ordered decl inside)
  none group listed choice := (same.none _).symm.trans (exact.none group listed choice)
  many group listed choice := (same.many _).symm.trans (exact.many group listed choice)
  one group listed choice chosen only :=
    (same.reports chosen.name).symm.trans (exact.one group listed choice chosen only)
  noOtherCount name reported := exact.noOtherCount name ((same.reports name).mpr reported)
  noOtherNone names reported := exact.noOtherNone names ((same.none names).mpr reported)
  noOtherMany names reported := exact.noOtherMany names ((same.many names).mpr reported)

theorem sameOccurrences_abstract (named : Option String) (actual : String)
    (kinds : List ViolationKind) :
    SameOccurrences (abstractFindings schema named actual ++ kinds) kinds := by
  rw [abstractFindings]
  split
  · exact ⟨by simp, by simp, by simp, by simp [Reports, ViolationKind.about]⟩
  · exact ⟨fun _ => Iff.rfl, fun _ => Iff.rfl, fun _ => Iff.rfl, fun _ => Iff.rfl⟩

/-- No type declares a name twice, base types included. -/
def Schema.DistinctNames (schema : Schema) : Prop :=
  ∀ typeName decls, schema.flatten typeName = .ok decls → (decls.map (·.name)).Nodup

/-- At each complex node the walk enters, the occurrence violations noted are
those its groups ask for; and it enters each node declared below declared ones. -/
def Structural (crates : Crates) (schema : Schema) (message : Message) : Prop :=
  (∀ visit ∈ visits crates schema message, ∀ named fields groups,
    visit.node = .complex named fields →
      schema.groups (named.getD visit.declared) = .ok groups →
        Exact groups fields (visit.noted.map (·.kind))) ∧
    ∀ place, (message.place schema).Reaches schema place →
      ∃ visit ∈ visits crates schema message, visit.toPlace = place

theorem structural_iff (distinct : schema.DistinctNames) (produced : Produced crates schema message)
    (short : (validate crates schema message).length < maxViolations) :
    validate crates schema message = (visits crates schema message).flatMap (·.noted) ∧
      (Structural crates schema message ↔
        ∀ place, (message.place schema).Reaches schema place → ∀ named fields groups,
          place.node = .complex named fields →
          schema.groups (named.getD place.declared) = .ok groups →
            BranchesFilled groups fields) := by
  refine ⟨validate_eq_noted short, ?_⟩
  have entered (place : Place) (below : (message.place schema).Reaches schema place) :
      (⟨place, (place.findings crates schema).map (⟨place.path, ·⟩)⟩ : Visit) ∈
        visits crates schema message :=
    (mem_visits_message produced short).mpr ⟨below, rfl⟩
  have judged {place : Place} (below : (message.place schema).Reaches schema place)
    {named : Option String}
      {fields : List (String × Field)} {groups : List Group}
        (node : place.node = .complex named fields)
      (usable : schema.groups (named.getD place.declared) = .ok groups) :
      Exact groups fields (place.findings crates schema) ↔ BranchesFilled groups fields := by
    have apart : (fields.map Prod.fst).Nodup := by
      obtain ⟨left, tidy⟩ := produced.tidy.reached below
      rw [node] at tidy
      cases left with
      | zero => cases tidy
      | succ left => exact tidy.1
    have same : SameOccurrences (place.findings crates schema) (nodeFindings groups fields) := by
      simp only [Place.findings, node, usable]
      exact sameOccurrences_abstract _ _ _
    rw [← exact_iff_branchesFilled apart (distinct _ _ (flatten_of_groups usable))]
    exact ⟨same.exact, same.symm.exact⟩
  constructor
  · rintro ⟨exact, -⟩ place below named fields groups node usable
    have here := exact _ (entered place below) named fields groups node usable
    rw [List.map_map] at here
    exact (judged below node usable).mp (by simpa [Function.comp_def] using here)
  · intro filled
    refine ⟨?_, fun place below => ⟨_, entered place below, rfl⟩⟩
    intro visit recorded named fields groups node usable
    obtain ⟨below, noted⟩ := (mem_visits_message produced short).mp recorded
    rw [noted, List.map_map]
    have here := (judged below node usable).mpr (filled _ below named fields groups node usable)
    simpa [Function.comp_def] using here

end Messages

section Samples

/-- Two to five items, or a note instead. -/
def itemDecl : Element := ⟨"Item", "xs:string", 2, .bounded 5⟩

def noteDecl : Element := ⟨"Note", "xs:string", 1, .bounded 1⟩

def orderSchema : Schema where
  globalElements := Finmap.insert "Order" "OrderType" ∅
  complexTypes := Finmap.insert "OrderType" ⟨false, .groups [⟨.choice, [itemDecl, noteDecl]⟩]⟩ ∅
  simpleTypes := ∅

def orderText (items : List String) : String :=
  "\x7b\"Order\":\x7b\"Item\":[" ++ ",".intercalate (items.map fun item => "\"" ++ item ++ "\"") ++
    "]\x7d\x7d"

def orderValue (items : List String) : Json.Value :=
  .object [("Order", .object [("Item", .array (items.map .string))])]

/-- A parser that knows the order of some items. -/
def orderCrates (items : List String) : Crates :=
  { bareCrates with
    jsonParse := fun text => if text = orderText items then .ok (orderValue items)
      else .error "expected value" }

def order (items : List String) : Message :=
  ⟨"Order", .complex none [("Item", .many (items.map fun item => .simple (.string item)))]⟩

theorem distinctNames_order : orderSchema.DistinctNames := by
  intro typeName decls flat
  by_cases known : typeName = "OrderType"
  · subst known
    have same : orderSchema.flatten "OrderType" = .ok [itemDecl, noteDecl] := rfl
    rw [same] at flat
    cases flat
    decide
  · have unknown : orderSchema.complexTypes.lookup typeName = none := by
      simp [orderSchema, Finmap.lookup_insert_of_ne _ known]
    simp [Schema.flatten, Schema.groups, Schema.groupsChain, unknown] at flat

theorem produced_order (items : List String)
    (read : fromJson (orderCrates items) orderSchema (orderText items) = .ok (order items)) :
    Produced (orderCrates items) orderSchema (order items) := by
  have sorted : (orderValue items).Sorted := by
    have leaves : ∀ item ∈ items.map Json.Value.string, item.Sorted := by
      intro item member
      obtain ⟨text, -, rfl⟩ := List.mem_map.mp member
      exact .string
    exact (Json.Value.Sorted.array leaves).single.single
  exact .json (if_pos rfl) sorted read

theorem Place.reaches_simple {place target : Place} (leaf : place.node = .simple value)
    (below : place.Reaches schema target) : target = place := by
  rcases Relation.ReflTransGen.cases_head_iff.mp below with same | ⟨child, member, -⟩
  · exact same.symm
  · simp [Place.children, leaf] at member

/-- With two items the order is valid, and its report is exact. -/
theorem structural_order :
    validate (orderCrates ["a", "b"]) orderSchema (order ["a", "b"]) = [] ∧
      Structural (orderCrates ["a", "b"]) orderSchema (order ["a", "b"]) := by
  have quiet : validate (orderCrates ["a", "b"]) orderSchema (order ["a", "b"]) = [] := rfl
  refine ⟨quiet, (structural_iff distinctNames_order (produced_order _ rfl)
    (by rw [quiet]; decide)).2.mpr ?_⟩
  intro place below named fields groups node usable
  have children : ((order ["a", "b"]).place orderSchema).children orderSchema =
      [⟨"Order.Item[0]", "xs:string", .simple (.string "a")⟩,
        ⟨"Order.Item[1]", "xs:string", .simple (.string "b")⟩] :=
    rfl
  rcases Relation.ReflTransGen.cases_head_iff.mp below with rfl | ⟨child, member, lower⟩
  · cases node
    cases usable
    rintro group listed - chosen only ⟨few, -⟩
    cases List.mem_singleton.mp listed
    cases only
    revert few
    decide
  · rw [children] at member
    rcases List.mem_pair.mp member with rfl | rfl
    · rw [Place.reaches_simple rfl lower] at node
      cases node
    · rw [Place.reaches_simple rfl lower] at node
      cases node

/-- One item is fewer than an order has, and nothing is said about it. -/
theorem order_short :
    Produced (orderCrates ["a"]) orderSchema (order ["a"]) ∧ orderSchema.DistinctNames ∧
      validate (orderCrates ["a"]) orderSchema (order ["a"]) = [] ∧
      ¬ Structural (orderCrates ["a"]) orderSchema (order ["a"]) := by
  refine ⟨produced_order _ rfl, distinctNames_order, rfl, ?_⟩
  rintro ⟨exact, -⟩
  have entered : (⟨(order ["a"]).place orderSchema, []⟩ : Visit) ∈
      visits (orderCrates ["a"]) orderSchema (order ["a"]) := by
    have recorded : visits (orderCrates ["a"]) orderSchema (order ["a"]) =
        [⟨(order ["a"]).place orderSchema, []⟩,
          ⟨⟨"Order.Item[0]", "xs:string", .simple (.string "a")⟩, []⟩] := rfl
    rw [recorded]
    exact List.mem_cons_self
  have judged := exact _ entered none _ [⟨.choice, [itemDecl, noteDecl]⟩] rfl rfl
  have reported := (judged.one _ (List.mem_singleton_self _) rfl itemDecl rfl).mpr
    (.inl (by decide))
  obtain ⟨kind, here, -⟩ := reported
  cases here

end Samples

end OaGateway.Uci
