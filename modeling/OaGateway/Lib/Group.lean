import Mathlib.Data.List.Forall2
import Mathlib.Data.List.Perm.Basic

/-! Items grouped by a key, in the order the keys first appear. -/
namespace OaGateway.Lib
universe u v
variable {Item : Type u} {Key : Type v} [DecidableEq Key]

/-- The keys of some items, each where it first appears. -/
def keysOf (key : Item → Key) (items : List Item) : List Key := (items.map key).eraseDups

/-- The items of one key. -/
def keyed (key : Item → Key) (items : List Item) (name : Key) : List Item :=
  items.filter fun item => key item == name

/-- The items, those of one key together. -/
def grouped (key : Item → Key) (items : List Item) : List Item :=
  (keysOf key items).flatMap (keyed key items)

/-- The items of every other key. -/
def without (key : Item → Key) (items : List Item) (name : Key) : List Item :=
  items.filter fun item => !key item == name

theorem keysOf_cons (key : Item → Key) (item : Item) (rest : List Item) :
    keysOf key (item :: rest) = key item :: keysOf key (without key rest (key item)) := by
  rw [keysOf, List.map_cons, List.eraseDups_cons, List.filter_map]
  rfl

theorem mem_keysOf {key : Item → Key} {items : List Item} {name : Key} :
    name ∈ keysOf key items ↔ ∃ item ∈ items, key item = name := by
  rw [keysOf, List.mem_eraseDups, List.mem_map]

theorem length_without_le (key : Item → Key) (items : List Item) (name : Key) :
    (without key items name).length ≤ items.length :=
  List.length_filter_le _ _

theorem nodup_keysOf (key : Item → Key) (items : List Item) : (keysOf key items).Nodup := by
  match items with
  | [] => exact List.nodup_nil
  | item :: rest =>
    have shorter := length_without_le key rest (key item)
    rw [keysOf_cons]
    refine List.nodup_cons.mpr ⟨?_, nodup_keysOf key _⟩
    rw [mem_keysOf]
    rintro ⟨other, member, same⟩
    simpa [same] using (List.mem_filter.mp member).2
termination_by items.length
decreasing_by simp; omega

theorem keyed_without {key : Item → Key} {items : List Item} {name other : Key}
    (different : other ≠ name) :
    keyed key (without key items name) other = keyed key items other := by
  rw [keyed, keyed, without, List.filter_filter]
  refine List.filter_congr fun item _ => ?_
  by_cases same : key item = other
  · simp [same, different]
  · simp [same]

theorem grouped_cons (key : Item → Key) (item : Item) (rest : List Item) :
    grouped key (item :: rest) =
      keyed key (item :: rest) (key item) ++
          grouped key (without key (item :: rest) (key item)) := by
  have skipped : without key (item :: rest) (key item) =
    without key rest (key item) := by simp [without]
  rw [grouped, keysOf_cons, List.flatMap_cons, skipped, grouped]
  congr 1
  refine List.flatMap_congr fun name member => ?_
  obtain ⟨other, inside, same⟩ := mem_keysOf.mp member
  have different : name ≠ key item := by
    rintro rfl
    simpa [same] using (List.mem_filter.mp inside).2
  rw [← skipped, keyed_without different]

/-- Grouping moves the items and does nothing else. -/
theorem perm_grouped (key : Item → Key) (items : List Item) : (grouped key items).Perm items := by
  match items with
  | [] => exact List.Perm.refl _
  | item :: rest =>
    have shorter : (without key (item :: rest) (key item)).length < (item :: rest).length := by
      have bound := length_without_le key rest (key item)
      simp only [without, beq_self_eq_true, Bool.not_true, Bool.false_eq_true, not_false_eq_true,
        List.filter_cons_of_neg, List.length_cons] at bound ⊢
      omega
    rw [grouped_cons]
    refine ((perm_grouped key _).append_left _).trans ?_
    exact List.filter_append_perm (fun other => key other == key item) (item :: rest)
termination_by items.length
decreasing_by exact shorter

section Related
variable {Other : Type u} {relates : Item → Other → Prop} {key : Item → Key} {mark : Other → Key}
  {items : List Item} {others : List Other}

theorem keysOf_congr (same : items.map key = others.map mark) :
    keysOf key items = keysOf mark others := by
  rw [keysOf, keysOf, same]

/-- Related items of one key are still related side by side. -/
theorem forall₂_keyed (each : List.Forall₂ relates items others)
    (same : ∀ item other, relates item other → key item = mark other) (name : Key) :
    List.Forall₂ relates (keyed key items name) (keyed mark others name) := by
  induction each with
  | nil => exact .nil
  | cons here _ ih =>
    rw [keyed, keyed, List.filter_cons, List.filter_cons, same _ _ here]
    split
    · exact .cons here ih
    · exact ih

theorem forall₂_grouped (each : List.Forall₂ relates items others)
    (same : ∀ item other, relates item other → key item = mark other) :
    List.Forall₂ relates (grouped key items) (grouped mark others) := by
  have keys : items.map key = others.map mark := by
    rw [← List.forall₂_eq_eq_eq, List.forall₂_map_left_iff, List.forall₂_map_right_iff]
    exact each.imp same
  rw [grouped, grouped, keysOf_congr keys]
  refine List.rel_flatMap (List.forall₂_same.mpr fun _ _ => rfl) ?_
  rintro name _ rfl
  exact forall₂_keyed each same name

end Related

section Spread
universe w
variable {Group : Type w} {members : Group → List Item} {groups : List (Key × Group)}

/-- Groups written out one item after another, each with its key. -/
def spread (members : Group → List Item) (groups : List (Key × Group)) : List (Key × Item) :=
  groups.flatMap fun group => (members group.2).map fun item => (group.1, item)

omit [DecidableEq Key] in
theorem key_of_mem_spread {entry : Key × Item} (member : entry ∈ spread members groups) :
    entry.1 ∈ groups.map Prod.fst := by
  obtain ⟨group, inside, written⟩ := List.mem_flatMap.mp member
  obtain ⟨item, -, rfl⟩ := List.mem_map.mp written
  exact List.mem_map_of_mem inside

private theorem keyed_absent {name : Key} (absent : name ∉ groups.map Prod.fst) :
    keyed Prod.fst (spread members groups) name = [] := by
  refine List.filter_eq_nil_iff.mpr fun entry member => ?_
  simpa using fun same : entry.1 = name => absent (same ▸ key_of_mem_spread member)

private theorem without_absent {name : Key} (absent : name ∉ groups.map Prod.fst) :
    without Prod.fst (spread members groups) name = spread members groups := by
  refine List.filter_eq_self.mpr fun entry member => ?_
  simpa using fun same : entry.1 = name => absent (same ▸ key_of_mem_spread member)

private theorem filter_same (items : List Item) (name : Key) :
    (keyed Prod.fst (items.map fun item => (name, item)) name =
        items.map fun item => (name, item)) ∧
      without Prod.fst (items.map fun item => (name, item)) name = [] := by
  constructor
  · refine List.filter_eq_self.mpr fun entry member => ?_
    obtain ⟨item, -, rfl⟩ := List.mem_map.mp member
    simp
  · refine List.filter_eq_nil_iff.mpr fun entry member => ?_
    obtain ⟨item, -, rfl⟩ := List.mem_map.mp member
    simp

/-- Written-out groups have the keys they were written with. -/
theorem keysOf_spread (apart : (groups.map Prod.fst).Nodup)
    (some : ∀ group ∈ groups, members group.2 ≠ []) :
    keysOf Prod.fst (spread members groups) = groups.map Prod.fst := by
  induction groups with
  | nil => rfl
  | cons group rest ih =>
    obtain ⟨absent, apart⟩ := List.nodup_cons.mp apart
    obtain ⟨here, some⟩ := List.forall_mem_cons.mp some
    obtain ⟨first, more, shape⟩ := List.exists_cons_of_ne_nil here
    have split : spread members (group :: rest) =
        (group.1, first) :: (more.map (fun item => (group.1, item)) ++ spread members rest) := by
      simp [spread, shape]
    have left : without Prod.fst (more.map (fun item => (group.1, item)) ++ spread members rest)
      group.1 =
        spread members rest := by
      rw [without, List.filter_append]
      exact (congrArg₂ _ (filter_same more group.1).2 (without_absent absent)).trans
        (List.nil_append _)
    rw [split, keysOf_cons, left, ih apart some, List.map_cons]

/-- A written-out group is found again under its key. -/
theorem keyed_spread (apart : (groups.map Prod.fst).Nodup) {group : Key × Group}
    (member : group ∈ groups) :
    keyed Prod.fst (spread members groups) group.1 = (members group.2).map fun item =>
      (group.1, item) := by
  induction groups with
  | nil => cases member
  | cons head rest ih =>
    obtain ⟨absent, apart⟩ := List.nodup_cons.mp apart
    have split : keyed Prod.fst (spread members (head :: rest)) group.1 =
        keyed Prod.fst ((members head.2).map fun item => (head.1, item)) group.1 ++
          keyed Prod.fst (spread members rest) group.1 := by
      rw [spread, List.flatMap_cons, keyed, List.filter_append]
      rfl
    rw [split]
    rcases List.mem_cons.mp member with rfl | later
    · rw [(filter_same _ _).1, keyed_absent absent, List.append_nil]
    · have different : head.1 ≠ group.1 := fun same => absent (same ▸ List.mem_map_of_mem later)
      have none : keyed Prod.fst ((members head.2).map fun item => (head.1, item)) group.1 =
          [] := by
        refine List.filter_eq_nil_iff.mpr fun entry inside => ?_
        obtain ⟨item, -, rfl⟩ := List.mem_map.mp inside
        simpa using different
      rw [none, ih apart later, List.nil_append]

/-- Groups that were written out are grouped already. -/
theorem grouped_spread (apart : (groups.map Prod.fst).Nodup) :
    grouped Prod.fst (spread members groups) = spread members groups := by
  induction groups with
  | nil => rfl
  | cons group rest ih =>
    obtain ⟨absent, apart⟩ := List.nodup_cons.mp apart
    have split : spread members (group :: rest) =
        (members group.2).map (fun item => (group.1, item)) ++ spread members rest := by
      simp [spread]
    cases shape : members group.2 with
    | nil =>
      rw [split, shape]
      exact ih apart
    | cons first more =>
      rw [split, shape, List.map_cons, List.cons_append, grouped_cons, ← List.cons_append,
        ← List.map_cons]
      dsimp only
      rw [keyed, List.filter_append, without, List.filter_append]
      have kept := filter_same (first :: more) group.1
      rw [keyed, without] at kept
      have left := @keyed_absent _ _ _ _ members rest group.1 absent
      have more := @without_absent _ _ _ _ members rest group.1 absent
      rw [keyed] at left
      rw [without] at more
      rw [kept.1, kept.2, left, more, List.append_nil, List.nil_append, ih apart]

end Spread

end OaGateway.Lib
