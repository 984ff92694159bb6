import Mathlib.Data.Finmap
import Mathlib.Data.Finset.Basic
import Mathlib.Data.Finset.Dedup

/-! Hash maps and hash sets up to iteration order: point updates of a finite
map, indexes that hold a set per group and drop a group once it is empty, and
the order a program happens to enumerate a set in. -/
namespace OaGateway.Lib
universe u v w

section Alter
variable {Key : Type u} {Value : Type v} [DecidableEq Key]

/-- A map whose values do not depend on the key. -/
abbrev Table (Key : Type u) (Value : Type v) := Finmap fun _ : Key => Value

/-- Rewrite the entry of one key: `none` is an absent entry on both sides. -/
def Table.alter (table : Table Key Value) (key : Key) (change : Option Value → Option Value) :
    Table Key Value :=
  match change (table.lookup key) with
  | some value => table.insert key value
  | none => table.erase key

theorem Table.lookup_alter (table : Table Key Value) (key other : Key)
    (change : Option Value → Option Value) :
    (table.alter key change).lookup other =
      if other = key then change (table.lookup key) else table.lookup other := by
  unfold Table.alter
  by_cases same : other = key
  · subst other
    cases result : change (table.lookup key) <;> simp
  · cases change (table.lookup key) with
    | none => simp [same, Finmap.lookup_erase_ne same]
    | some value => simp [same, Finmap.lookup_insert_of_ne _ same]

theorem Table.lookup_insert_ite (table : Table Key Value) (key other : Key) (value : Value) :
    (table.insert key value).lookup other = if other = key then some value
      else table.lookup other := by
  by_cases same : other = key
  · subst other; simp
  · simp [same, Finmap.lookup_insert_of_ne _ same]

theorem Table.lookup_erase_ite (table : Table Key Value) (key other : Key) :
    (table.erase key).lookup other = if other = key then none else table.lookup other := by
  by_cases same : other = key
  · subst other; simp
  · simp [same, Finmap.lookup_erase_ne same]

end Alter

/-- An entry that is never its default is known from reading it with the default. -/
theorem eq_of_getD_eq {Value : Type u} {entry other : Option Value} {default : Value}
    (absent : entry ≠ some default) (alike : other ≠ some default)
    (same : entry.getD default = other.getD default) : entry = other := by
  cases entry <;> cases other <;> simp_all

section Index
variable {Group : Type u} {Item : Type v} [DecidableEq Group] [DecidableEq Item]

/-- A set of items for each group that has any. -/
abbrev Index (Group : Type u) (Item : Type v) := Table Group (Finset Item)

namespace Index

/-- Items filed under `group`; an absent group has none. -/
def members (index : Index Group Item) (group : Group) : Finset Item :=
  (index.lookup group).getD ∅

/-- File `item` under `group`, opening the group when it is new. -/
def add (index : Index Group Item) (group : Group) (item : Item) : Index Group Item :=
  index.alter group fun entry => some (insert item (entry.getD ∅))

/-- Take `item` out of `group` and drop the group when nothing is left in it. -/
def remove (index : Index Group Item) (group : Group) (item : Item) : Index Group Item :=
  index.alter group fun entry => entry.bind fun set =>
    if set.erase item = ∅ then none else some (set.erase item)

/-- No group is kept without an item. -/
def Pruned (index : Index Group Item) : Prop :=
  ∀ group, index.lookup group ≠ some ∅

omit [DecidableEq Item] in
/-- An index that keeps no empty group is its members. -/
theorem Pruned.unique {index other : Index Group Item} (pruned : Pruned index)
    (alike : Pruned other) (same : ∀ group, index.members group = other.members group) :
    index = other :=
  Finmap.ext_lookup fun group => eq_of_getD_eq (pruned group) (alike group) (same group)

theorem members_add (index : Index Group Item) (group other : Group) (item : Item) :
    (index.add group item).members other =
      if other = group then insert item (index.members group) else index.members other := by
  unfold members add
  rw [Table.lookup_alter]
  split <;> rfl

theorem members_remove (index : Index Group Item) (group other : Group) (item : Item) :
    (index.remove group item).members other =
      if other = group then (index.members group).erase item else index.members other := by
  unfold members remove
  rw [Table.lookup_alter]
  by_cases same : other = group
  · simp only [same, ↓reduceIte]
    cases index.lookup group with
    | none => simp
    | some set =>
      by_cases empty : set.erase item = ∅ <;> simp [empty]
  · simp [same]

omit [DecidableEq Item] in
theorem members_erase (index : Index Group Item) (group other : Group) :
    members (Finmap.erase group index) other = if other = group then ∅
      else index.members other := by
  unfold members
  rw [Table.lookup_erase_ite]
  split <;> rfl

theorem mem_add {index : Index Group Item} {group other : Group} {item key : Item} :
    key ∈ (index.add group item).members other ↔
      (other = group ∧ key = item) ∨ key ∈ index.members other := by
  rw [members_add]
  by_cases same : other = group
  · subst other; simp
  · simp [same]

theorem mem_remove {index : Index Group Item} {group other : Group} {item key : Item} :
    key ∈ (index.remove group item).members other ↔
      key ∈ index.members other ∧ ¬ (other = group ∧ key = item) := by
  rw [members_remove]
  by_cases same : other = group
  · subst other
    simp [and_comm]
  · simp [same]

omit [DecidableEq Item] in
theorem Pruned.empty : Pruned (∅ : Index Group Item) := by
  intro group
  simp

theorem Pruned.add {index : Index Group Item} (pruned : Pruned index) (group : Group)
    (item : Item) :
    Pruned (index.add group item) := by
  intro other
  unfold Index.add
  rw [Table.lookup_alter]
  split
  · simp
  · exact pruned other

theorem Pruned.remove {index : Index Group Item} (pruned : Pruned index) (group : Group)
    (item : Item) :
    Pruned (index.remove group item) := by
  intro other
  unfold Index.remove
  rw [Table.lookup_alter]
  split
  · cases index.lookup group with
    | none => simp
    | some set =>
      by_cases empty : set.erase item = ∅ <;> simp [empty]
  · exact pruned other

omit [DecidableEq Item] in
theorem Pruned.erase {index : Index Group Item} (pruned : Pruned index) (group : Group) :
    Pruned (Finmap.erase group index) := by
  intro other
  rw [Table.lookup_erase_ite]
  split
  · simp
  · exact pruned other

end Index

end Index

section Index2
variable {Outer : Type u} {Inner : Type v} {Item : Type w}
variable [DecidableEq Outer] [DecidableEq Inner] [DecidableEq Item]

/-- An index of indexes. -/
abbrev Index2 (Outer : Type u) (Inner : Type v) (Item : Type w) := Table Outer (Index Inner Item)

namespace Index2

def members (index : Index2 Outer Inner Item) (outer : Outer) (inner : Inner) : Finset Item :=
  Index.members ((index.lookup outer).getD ∅) inner

def add (index : Index2 Outer Inner Item) (outer : Outer) (inner : Inner) (item : Item) :
    Index2 Outer Inner Item :=
  index.alter outer fun entry => some (Index.add (entry.getD ∅) inner item)

/-- Take `item` out of the inner index, then drop an inner index left empty. -/
def remove (index : Index2 Outer Inner Item) (outer : Outer) (inner : Inner) (item : Item) :
    Index2 Outer Inner Item :=
  index.alter outer fun entry => entry.bind fun byInner =>
    if Index.remove byInner inner item = ∅ then none else some (Index.remove byInner inner item)

/-- Neither an empty inner index nor an empty set inside one is kept. -/
structure Pruned (index : Index2 Outer Inner Item) : Prop where
  outer : ∀ outer, index.lookup outer ≠ some ∅
  inner : ∀ outer byInner, index.lookup outer = some byInner → Index.Pruned byInner

theorem mem_add {index : Index2 Outer Inner Item} {outer outer' : Outer} {inner inner' : Inner}
    {item key : Item} :
    key ∈ (index.add outer inner item).members outer' inner' ↔
      ((outer' = outer ∧ inner' = inner) ∧ key = item) ∨ key ∈ index.members outer' inner' := by
  unfold members add
  rw [Table.lookup_alter]
  by_cases same : outer' = outer
  · subst outer'
    simp [Index.mem_add]
  · simp [same]

theorem mem_remove {index : Index2 Outer Inner Item} {outer outer' : Outer} {inner inner' : Inner}
    {item key : Item} :
    key ∈ (index.remove outer inner item).members outer' inner' ↔
      key ∈ index.members outer' inner' ∧ ¬ ((outer' = outer ∧ inner' = inner) ∧ key = item) := by
  unfold members remove
  rw [Table.lookup_alter]
  by_cases same : outer' = outer
  · subst outer'
    simp only [↓reduceIte, true_and]
    cases index.lookup outer with
    | none => simp [Index.members]
    | some byInner =>
      -- An inner index that is dropped had no member left, so it reads as the empty one.
      have kept : (Option.getD (if Index.remove byInner inner item = ∅ then none
          else some (Index.remove byInner inner item)) ∅) = Index.remove byInner inner item := by
        split
        · rename_i empty
          simp [empty]
        · rfl
      simp [kept, Index.mem_remove]
  · simp [same]

omit [DecidableEq Item] in
theorem Pruned.unique {index other : Index2 Outer Inner Item} (pruned : Pruned index)
    (alike : Pruned other)
    (same : ∀ outer inner, index.members outer inner = other.members outer inner) :
    index = other := by
  have kept {index : Index2 Outer Inner Item} (pruned : Pruned index) (outer : Outer) :
      Index.Pruned ((index.lookup outer).getD ∅) := by
    cases found : index.lookup outer with
    | none => exact Index.Pruned.empty
    | some byInner => exact pruned.inner outer byInner found
  refine Finmap.ext_lookup fun outer => eq_of_getD_eq (pruned.outer outer) (alike.outer outer) ?_
  exact (kept pruned outer).unique (kept alike outer) (same outer)

omit [DecidableEq Item] in
theorem Pruned.empty : Pruned (∅ : Index2 Outer Inner Item) := by
  constructor <;> simp

theorem Pruned.add {index : Index2 Outer Inner Item} (pruned : Pruned index) (outer : Outer)
    (inner : Inner) (item : Item) : Pruned (index.add outer inner item) := by
  have opened : ∀ entry : Index Inner Item, Index.add entry inner item ≠ ∅ := by
    intro entry empty
    have member : item ∈ (Index.add entry inner item).members inner :=
      Index.mem_add.mpr (.inl ⟨rfl, rfl⟩)
    rw [empty] at member
    simp [Index.members] at member
  constructor
  · intro other
    unfold Index2.add
    rw [Table.lookup_alter]
    split
    · simpa using opened _
    · exact pruned.outer other
  · intro other byInner found
    unfold Index2.add at found
    rw [Table.lookup_alter] at found
    split at found
    · cases found
      cases present : index.lookup outer with
      | none => exact Index.Pruned.add Index.Pruned.empty inner item
      | some earlier => exact (pruned.inner outer earlier present).add inner item
    · exact pruned.inner other byInner found

theorem Pruned.remove {index : Index2 Outer Inner Item} (pruned : Pruned index) (outer : Outer)
    (inner : Inner) (item : Item) : Pruned (index.remove outer inner item) := by
  constructor
  · intro other
    unfold Index2.remove
    rw [Table.lookup_alter]
    split
    · cases index.lookup outer with
      | none => simp
      | some byInner =>
        by_cases empty : Index.remove byInner inner item = ∅ <;> simp [empty]
    · exact pruned.outer other
  · intro other byInner found
    unfold Index2.remove at found
    rw [Table.lookup_alter] at found
    split at found
    · cases present : index.lookup outer with
      | none => simp [present] at found
      | some earlier =>
        by_cases empty : Index.remove earlier inner item = ∅
        · simp [present, empty] at found
        · simp only [present, Option.bind_some, empty, ↓reduceIte, Option.some.injEq] at found
          rw [← found]
          exact (pruned.inner outer earlier present).remove inner item
    · exact pruned.inner other byInner found

end Index2

end Index2

/-- The order in which a program enumerates a set: unspecified, but each
element comes exactly once. -/
structure IterOrder (Item : Type u) where
  toList : Finset Item → List Item
  nodup : ∀ set, (toList set).Nodup
  mem_iff : ∀ set item, item ∈ toList set ↔ item ∈ set

namespace IterOrder
variable {Item : Type u}

noncomputable def unspecified : IterOrder Item where
  toList := Finset.toList
  nodup := Finset.nodup_toList
  mem_iff _ _ := Finset.mem_toList

theorem coe_toList (order : IterOrder Item) (set : Finset Item) :
    (order.toList set : Multiset Item) = set.val := by
  have members : ∀ item, item ∈ (order.toList set : Multiset Item) ↔ item ∈ set.val := by
    simpa using order.mem_iff set
  exact (Multiset.Nodup.ext (Multiset.coe_nodup.mpr (order.nodup set)) set.nodup).mpr members

@[simp] theorem toList_singleton (order : IterOrder Item) (item : Item) :
    order.toList {item} = [item] := by
  have single := order.coe_toList {item}
  rw [Finset.singleton_val] at single
  exact Multiset.coe_eq_singleton.mp single

end IterOrder

end OaGateway.Lib
