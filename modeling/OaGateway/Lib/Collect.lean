import Mathlib.Data.List.Forall2

/-! Fallible maps over lists that stop at the first error. -/
namespace OaGateway.Lib
universe u v w
variable {Item : Type u} {Failure : Type v} {Result : Type w}

/-- `collect::<Result<Vec<_>, _>>()`. -/
def collect (run : Item → Except Failure Result) : List Item → Except Failure (List Result)
  | [] => .ok []
  | item :: rest =>
    match run item with
    | .error failure => .error failure
    | .ok result =>
      match collect run rest with
      | .error failure => .error failure
      | .ok results => .ok (result :: results)

/-- A collection succeeds when every item does, in order. -/
theorem collect_eq_ok {run : Item → Except Failure Result} {items : List Item}
    {results : List Result} :
    collect run items = .ok results ↔
      List.Forall₂ (fun item result => run item = .ok result) items results := by
  induction items generalizing results with
  | nil =>
    rw [collect, List.forall₂_nil_left_iff]
    exact ⟨fun same => (Except.ok.inj same).symm, fun same => by rw [same]⟩
  | cons item rest ih =>
    rw [List.forall₂_cons_left_iff, collect]
    constructor
    · intro collected
      split at collected
      · cases collected
      · rename_i result here
        split at collected
        · cases collected
        · rename_i later tail
          cases collected
          exact ⟨result, later, here, ih.mp tail, rfl⟩
    · rintro ⟨result, later, here, tail, rfl⟩
      simp only [here, ih.mpr tail]

theorem collect_cons_eq_ok {run : Item → Except Failure Result} {item : Item} {rest : List Item}
    {results : List Result} :
    collect run (item :: rest) = .ok results ↔
      ∃ result later, run item = .ok result ∧ collect run rest = .ok later ∧
          results = result :: later := by
  simp only [collect_eq_ok, List.forall₂_cons_left_iff]

theorem length_collect {run : Item → Except Failure Result} {items : List Item}
    {results : List Result} (collected : collect run items = .ok results) :
    results.length = items.length :=
  (collect_eq_ok.mp collected).length_eq.symm

theorem of_mem_collect {run : Item → Except Failure Result} {items : List Item}
    {results : List Result} (collected : collect run items = .ok results) {result : Result}
    (member : result ∈ results) :
    ∃ item ∈ items, run item = .ok result := by
  have each := collect_eq_ok.mp collected
  clear collected
  induction each with
  | nil => simp at member
  | cons here _ ih =>
    rcases List.mem_cons.mp member with rfl | later
    · exact ⟨_, by simp, here⟩
    · obtain ⟨item, inside, ran⟩ := ih later
      exact ⟨item, by simp [inside], ran⟩

theorem mem_of_collect {run : Item → Except Failure Result} {items : List Item}
    {results : List Result} (collected : collect run items = .ok results) {item : Item}
    (inside : item ∈ items) :
    ∃ result ∈ results, run item = .ok result := by
  have each := collect_eq_ok.mp collected
  clear collected
  induction each with
  | nil => cases inside
  | cons here _ ih =>
    rcases List.mem_cons.mp inside with rfl | later
    · exact ⟨_, List.mem_cons_self .., here⟩
    · obtain ⟨result, member, ran⟩ := ih later
      exact ⟨result, List.mem_cons_of_mem _ member, ran⟩

theorem collect_congr {run other : Item → Except Failure Result} {items : List Item}
    (same : ∀ item ∈ items, run item = other item) : collect run items = collect other items := by
  induction items with
  | nil => rfl
  | cons item rest ih =>
    rw [collect, collect, same item (by simp), ih fun later member => same later (by simp [member])]

theorem collect_map {Source : Type u} (run : Item → Except Failure Result) (source : Source → Item)
    (items : List Source) : collect run (items.map source) = collect (run ∘ source) items := by
  induction items with
  | nil => rfl
  | cons item rest ih =>
    rw [List.map_cons, collect, collect, ih]
    rfl

/-- A collection succeeds exactly when each item does. -/
theorem collect_succeeds {run : Item → Except Failure Result} {items : List Item} :
    (∃ results, collect run items = .ok results) ↔
      ∀ item ∈ items, ∃ result, run item = .ok result := by
  induction items with
  | nil => simp [collect]
  | cons item rest ih =>
    rw [List.forall_mem_cons, ← ih, collect]
    cases here : run item with
    | error failure => simp
    | ok result => cases later : collect run rest <;> simp

/-- A collection fails with the failure of one of its items. -/
theorem exists_of_collect_error {run : Item → Except Failure Result} {items : List Item}
    {fault : Failure} (failed : collect run items = .error fault) :
    ∃ item ∈ items, run item = .error fault := by
  induction items with
  | nil => cases failed
  | cons item rest ih =>
    rw [collect] at failed
    cases here : run item with
    | error reason =>
      simp only [here] at failed
      cases failed
      exact ⟨item, List.mem_cons_self, here⟩
    | ok result =>
      cases later : collect run rest with
      | ok results => simp [here, later] at failed
      | error reason =>
        simp only [here, later] at failed
        cases failed
        obtain ⟨other, member, ran⟩ := ih later
        exact ⟨other, List.mem_cons_of_mem item member, ran⟩

theorem collect_ok {run : Item → Except Failure Result} {image : Item → Result} {items : List Item}
    (each : ∀ item ∈ items, run item = .ok (image item)) :
    collect run items = .ok (items.map image) := by
  rw [collect_eq_ok, List.forall₂_map_right_iff, List.forall₂_same]
  exact each

theorem collect_append {run : Item → Except Failure Result} {items more : List Item}
    {results : List Result} :
    collect run (items ++ more) = .ok results ↔
      ∃ front back, results = front ++ back ∧ collect run items = .ok front ∧
          collect run more = .ok back := by
  simp only [collect_eq_ok]
  constructor
  · intro each
    refine ⟨results.take items.length, results.drop items.length,
      (List.take_append_drop _ _).symm, ?_, ?_⟩
    · simpa using List.forall₂_take items.length each
    · simpa using List.forall₂_drop items.length each
  · rintro ⟨front, back, rfl, first, second⟩
    exact List.rel_append first second

theorem collect_longer {run : Item → Except Failure Result} {front back : List Item} {item : Item}
    {results : List Result} (collected : collect run (front ++ back) = .ok results) :
    collect run (front ++ item :: back) ≠ .ok results := by
  intro again
  have count := (length_collect collected).symm.trans (length_collect again)
  simp at count

theorem collect_middle {run : Item → Except Failure Result} {front back : List Item}
    {item other : Item} {results : List Result}
    (collected : collect run (front ++ item :: back) = .ok results) :
    collect run (front ++ other :: back) = .ok results ↔ run other = run item := by
  obtain ⟨first, later, rfl, one, two⟩ := collect_append.mp collected
  obtain ⟨result, rest, here, last, rfl⟩ := collect_cons_eq_ok.mp two
  rw [here, collect_append]
  constructor
  · rintro ⟨first', later', same, one', two'⟩
    rw [one] at one'
    cases one'
    obtain rfl := List.append_cancel_left same
    obtain ⟨result', rest', here', -, same⟩ := collect_cons_eq_ok.mp two'
    rw [here', (List.cons.inj same).1]
  · intro same
    exact ⟨first, result :: rest, rfl, one, collect_cons_eq_ok.mpr ⟨result, rest, same, last, rfl⟩⟩

theorem map_ok_iff {Image : Type u} {image : Result → Image} (injective : Function.Injective image)
    {run : Except Failure Result} {result : Result} : run.map image = .ok (image result) ↔
      run = .ok result := by
  cases run <;> simp [Except.map, injective.eq_iff]

/-- Where it is known which items succeed and with what. -/
theorem collect_eq_ok_map {run : Item → Except Failure Result} {good : Item → Prop}
    {image : Item → Result}
    (each : ∀ item result, run item = .ok result ↔ good item ∧ result = image item)
    {items : List Item} {results : List Result} :
    collect run items = .ok results ↔ (∀ item ∈ items, good item) ∧ results = items.map image := by
  constructor
  · intro ran
    have all : ∀ item ∈ items, good item := by
      intro item member
      obtain ⟨result, here⟩ := collect_succeeds.mp ⟨results, ran⟩ item member
      exact ((each item result).mp here).1
    have known := collect_ok fun item member => (each item (image item)).mpr ⟨all item member, rfl⟩
    exact ⟨all, Except.ok.inj (ran.symm.trans known)⟩
  · rintro ⟨all, rfl⟩
    exact collect_ok fun item member => (each item (image item)).mpr ⟨all item member, rfl⟩

/-- Numbered items that succeed whatever their number. -/
theorem collect_zipIdx_ok {run : Item × Nat → Except Failure Result} {image : Item → Result}
    {items : List Item} (each : ∀ item ∈ items, ∀ index, run (item, index) = .ok (image item)) :
    collect run items.zipIdx = .ok (items.map image) := by
  have known : ∀ entry ∈ items.zipIdx, run entry = .ok ((image ∘ Prod.fst) entry) :=
    fun entry member => each entry.1 (List.fst_mem_of_mem_zipIdx member) entry.2
  rw [collect_ok known, ← List.map_map, List.zipIdx_map_fst]

theorem of_collect_zipIdx {run : Item × Nat → Except Failure Result} {items : List Item}
    {results : List Result} (collected : collect run items.zipIdx = .ok results) :
    List.Forall₂ (fun item result => ∃ index, run (item, index) = .ok result) items results := by
  have each := collect_eq_ok.mp collected
  rw [← List.zipIdx_map_fst 0 items, List.forall₂_map_left_iff]
  exact each.imp fun entry result ran => ⟨entry.2, ran⟩

/-- Numbered items whose results are known, whatever their number. -/
theorem collect_zipIdx_eq_ok {run : Item × Nat → Except Failure Result} {items : List Item}
    {results : List Result}
    (each : List.Forall₂ (fun item result => ∀ index, run (item, index) = .ok result)
      items results) :
    collect run items.zipIdx = .ok results := by
  have known (start : Nat) : List.Forall₂ (fun entry result => run entry = .ok result)
      (items.zipIdx start) results := by
    induction each generalizing start with
    | nil => exact .nil
    | cons here _ ih => exact .cons (here start) (ih (start + 1))
  exact collect_eq_ok.mpr (known 0)

theorem forall₂_of_mem {Left Right : Type u} {relates other : Left → Right → Prop}
    {lefts : List Left} {rights : List Right} (each : List.Forall₂ relates lefts rights)
    (wider : ∀ left ∈ lefts, ∀ right, relates left right → other left right) :
    List.Forall₂ other lefts rights := by
  induction each with
  | nil => exact .nil
  | cons here _ ih =>
    obtain ⟨first, later⟩ := List.forall_mem_cons.mp wider
    exact .cons (first _ here) (ih later)

theorem forall₂_comp {Left Middle Right : Type u} {first : Left → Middle → Prop}
    {second : Middle → Right → Prop} {lefts : List Left} {middles : List Middle}
    {rights : List Right} (one : List.Forall₂ first lefts middles)
    (two : List.Forall₂ second middles rights) :
    List.Forall₂ (fun left right => ∃ middle, first left middle ∧ second middle right)
      lefts rights := by
  induction one generalizing rights with
  | nil =>
    cases two
    exact .nil
  | cons here _ ih =>
    cases two with
    | cons there later => exact .cons ⟨_, here, there⟩ (ih later)

/-- Related lists with the same images have a related element with the same
image for each element. -/
theorem exists_forall₂_of_mem {Left Right Image : Type u} {relates : Left → Right → Prop}
    {one : Left → Image} {two : Right → Image} {lefts : List Left} {rights : List Right}
    (each : List.Forall₂ relates lefts rights) (same : rights.map two = lefts.map one)
    {left : Left} (member : left ∈ lefts) : ∃ right, relates left right ∧ two right = one left := by
  induction each with
  | nil => cases member
  | cons here _ ih =>
    simp only [List.map_cons, List.cons.injEq] at same
    rcases List.mem_cons.mp member with rfl | later
    · exact ⟨_, here, same.1⟩
    · exact ih same.2 later

theorem forall₂_flatMap {Left Right : Type u} {relates : Left → Right → Prop}
    {left : Item → List Left} {right : Item → List Right} {items : List Item}
    (each : ∀ item ∈ items, List.Forall₂ relates (left item) (right item)) :
    List.Forall₂ relates (items.flatMap left) (items.flatMap right) := by
  induction items with
  | nil => exact .nil
  | cons item rest ih =>
    obtain ⟨here, later⟩ := List.forall_mem_cons.mp each
    exact List.rel_append here (ih later)

/-- In related lists the first elements that pass are related, if there are any. -/
theorem find_forall₂ {Left Right : Type u} {relates : Left → Right → Prop} {one : Left → Bool}
    {two : Right → Bool} {lefts : List Left} {rights : List Right}
    (each : List.Forall₂ relates lefts rights)
    (agree : ∀ left right, relates left right → one left = two right) :
    Option.Rel relates (lefts.find? one) (rights.find? two) := by
  induction each with
  | nil => exact .none
  | @cons left right _ _ here _ ih =>
    rw [List.find?_cons, List.find?_cons, ← agree left right here]
    cases one left with
    | true => exact .some here
    | false => exact ih

theorem bind_of_rel {Left Right : Type u} {Image : Type v} {relates : Left → Right → Prop}
    {left : Option Left} {right : Option Right} {one : Left → Option Image}
    {two : Right → Option Image} (related : Option.Rel relates left right)
    (agree : ∀ left right, relates left right → one left = two right) :
    left.bind one = right.bind two := by
  cases related with
  | none => rfl
  | some here => exact agree _ _ here

/-- A sequence succeeds when its first part does and the rest goes on from there. -/
theorem bind_eq_ok {Image : Type w} {run : Except Failure Result}
    {next : Result → Except Failure Image} {reached : Image} : (run >>= next) = .ok reached ↔
      ∃ result, run = .ok result ∧ next result = .ok reached := by
  cases run with
  | error fault => simp [bind, Except.bind]
  | ok result => simp [bind, Except.bind]

theorem map_eq_ok {Image : Type u} {run : Except Failure Result} {image : Result → Image}
    {mapped : Image} :
    run.map image = .ok mapped ↔ ∃ result, run = .ok result ∧ image result = mapped := by
  cases run <;> simp [Except.map]

theorem collect_flatten_eq_ok {Image : Type w} {run : Item → Except Failure (List Image)}
    {good : Item → Prop} {image : Item → List Image}
    (each : ∀ item result, run item = .ok result ↔ good item ∧ result = image item)
    {items : List Item} {results : List Image} : (collect run items).map List.flatten =
      .ok results ↔
      (∀ item ∈ items, good item) ∧ results = items.flatMap image := by
  simp only [map_eq_ok, collect_eq_ok_map each]
  constructor
  · rintro ⟨parts, ⟨all, rfl⟩, rfl⟩
    exact ⟨all, List.flatMap_def.symm⟩
  · rintro ⟨all, rfl⟩
    exact ⟨_, ⟨all, rfl⟩, List.flatMap_def.symm⟩

theorem map_eq_error {Image : Type u} {run : Except Failure Result} {image : Result → Image}
    {fault : Failure} :
    run.map image = .error fault ↔ run = .error fault := by
  cases run <;> simp [Except.map]

theorem map_succeeds {Image : Type u} {run : Except Failure Result} {image : Result → Image} :
    (∃ result, run.map image = .ok result) ↔ ∃ result, run = .ok result := by
  cases run <;> simp [Except.map]

theorem map_injective {Image : Type u} {image : Result → Image}
    (injective : Function.Injective image) :
    Function.Injective (Except.map image : Except Failure Result → Except Failure Image) := by
  intro first second same
  cases first <;> cases second <;> simp_all [Except.map, injective.eq_iff]

/-- Two runs that fail alike. -/
def SameFailure (first second : Except Failure Result) : Prop :=
  ∀ failure, first = .error failure ↔ second = .error failure

theorem SameFailure.eq_of_error {first second : Except Failure Result}
    (same : SameFailure first second) (failed : ∀ result, first ≠ .ok result) : first = second := by
  cases first with
  | error failure => exact ((same failure).mp rfl).symm
  | ok result => exact absurd rfl (failed result)

theorem SameFailure.map {Image : Type u} {first second : Except Failure Result}
    (same : SameFailure first second) (one two : Result → Image) :
    SameFailure (first.map one) (second.map two) := by
  intro failure
  have both := same failure
  cases first <;> cases second <;> simp_all [Except.map]

theorem SameFailure.collect {run other : Item → Except Failure Result} {items : List Item}
    (each : ∀ item ∈ items, SameFailure (run item) (other item)) :
    SameFailure (collect run items) (collect other items) := by
  induction items with
  | nil => exact fun _ => Iff.rfl
  | cons item rest ih =>
    obtain ⟨here, later⟩ := List.forall_mem_cons.mp each
    have tail := ih later
    intro failure
    rw [Lib.collect, Lib.collect]
    cases first : run item with
    | error refused => rw [(here refused).mp first]
    | ok result =>
      cases second : other item with
      | error refused => simp [(here refused).mpr second] at first
      | ok replied =>
        have inner := tail failure
        cases one : Lib.collect run rest with
        | error refused => cases two : Lib.collect other rest <;> simpa [one, two] using inner
        | ok results => cases two : Lib.collect other rest <;> simp_all

/-- Where every item succeeds, two collections agree when they do on each item. -/
theorem collect_eq_iff {run other : Item → Except Failure Result} {items : List Item}
    (succeeds : ∀ item ∈ items, ∃ result, run item = .ok result) :
    collect run items = collect other items ↔ ∀ item ∈ items, run item = other item := by
  refine ⟨fun same => ?_, collect_congr⟩
  induction items with
  | nil => simp
  | cons item rest ih =>
    obtain ⟨⟨result, here⟩, later⟩ := List.forall_mem_cons.mp succeeds
    obtain ⟨results, tail⟩ := collect_succeeds.mpr later
    rw [collect, collect, here, tail] at same
    cases replied : other item with
    | error failure => simp [replied] at same
    | ok reply =>
      cases replies : collect other rest with
      | error failure => simp [replied, replies] at same
      | ok rest' =>
        simp only [replied, replies, Except.ok.injEq, List.cons.injEq] at same
        refine List.forall_mem_cons.mpr ⟨by rw [here, replied, same.1], ih later ?_⟩
        rw [tail, replies, same.2]

/-- Of the results of numbered items, those of one number are the item's own. -/
theorem filter_zipIdx_flatMap (run : Item → Option Result) (items : List Item) (start index : Nat) :
    ((items.zipIdx start).flatMap fun entry => ((run entry.1).map (entry.2, ·)).toList).filter
        (fun result => result.1 == start + index) =
      ((items[index]?.bind run).map (start + index, ·)).toList := by
  induction items generalizing start index with
  | nil => simp
  | cons item rest ih =>
    rw [List.zipIdx_cons, List.flatMap_cons, List.filter_append]
    cases index with
    | zero =>
      have later : ((rest.zipIdx (start + 1)).flatMap fun entry =>
          ((run entry.1).map (entry.2, ·)).toList).filter (fun result => result.1 == start + 0) =
              [] := by
        rw [List.filter_eq_nil_iff]
        intro result member
        obtain ⟨entry, inside, made⟩ := List.mem_flatMap.mp member
        have beyond := List.le_snd_of_mem_zipIdx inside
        obtain ⟨value, -, rfl⟩ := by simpa using made
        simp only [Nat.add_zero, beq_iff_eq]
        omega
      rw [later]
      cases here : run item <;> simp [here]
    | succ index =>
      have skipped : (((run item).map (start, ·)).toList).filter
          (fun result => result.1 == start + (index + 1)) = [] := by
        cases run item <;> simp
      have shift : start + (index + 1) = start + 1 + index := by omega
      rw [skipped, List.nil_append, List.getElem?_cons_succ, shift]
      exact ih (start + 1) index

end OaGateway.Lib
