import Mathlib.Data.List.Forall2
import Mathlib.Data.List.Nodup
import Mathlib.Data.List.Perm.Basic
import Mathlib.Order.Basic
import Mathlib.Order.Defs.LinearOrder
import Mathlib.Order.Lattice

/-! Ordered maps as strictly increasing association lists. Iteration follows
key order, and two maps with the same entries are the same map. -/
namespace OaGateway.Lib
universe u v
variable {Key : Type u} {Value : Type v} [LinearOrder Key]

/-- Put `key` where it belongs, replacing the value it had. -/
def insertEntry (key : Key) (value : Value) : List (Key × Value) → List (Key × Value)
  | [] => [(key, value)]
  | (head, held) :: rest =>
    if key < head then (key, value) :: (head, held) :: rest
    else if key = head then (key, value) :: rest
    else (head, held) :: insertEntry key value rest

def Increasing (entries : List (Key × Value)) : Prop :=
  entries.Pairwise fun first second => first.1 < second.1

theorem mem_insertEntry {key : Key} {value : Value} {entries : List (Key × Value)}
    {entry : Key × Value} (member : entry ∈ insertEntry key value entries) :
    entry = (key, value) ∨ entry ∈ entries := by
  induction entries with
  | nil => simpa [insertEntry] using member
  | cons head rest ih =>
    obtain ⟨name, held⟩ := head
    simp only [insertEntry] at member
    split at member
    · simpa using member
    · split at member
      · rcases List.mem_cons.mp member with same | later
        · exact .inl same
        · exact .inr (List.mem_cons_of_mem _ later)
      · rcases List.mem_cons.mp member with same | later
        · exact .inr (by simp [same])
        · rcases ih later with added | kept
          · exact .inl added
          · exact .inr (List.mem_cons_of_mem _ kept)

theorem Increasing.insertEntry {entries : List (Key × Value)} (ordered : Increasing entries)
    (key : Key) (value : Value) : Increasing (insertEntry key value entries) := by
  induction entries with
  | nil => exact List.pairwise_singleton _ _
  | cons head rest ih =>
    obtain ⟨name, held⟩ := head
    obtain ⟨above, tail⟩ := List.pairwise_cons.mp ordered
    simp only [Lib.insertEntry]
    split
    · rename_i below
      refine List.pairwise_cons.mpr ⟨?_, ordered⟩
      intro entry member
      rcases List.mem_cons.mp member with same | later
      · simpa [same] using below
      · exact lt_trans below (above entry later)
    · split
      · rename_i same
        exact List.pairwise_cons.mpr ⟨by simpa [same] using above, tail⟩
      · rename_i notBelow different
        refine List.pairwise_cons.mpr ⟨?_, ih tail⟩
        intro entry member
        rcases mem_insertEntry member with added | kept
        · simpa [added] using lt_of_le_of_ne (not_lt.mp notBelow) (Ne.symm different)
        · exact above entry kept

section InsertAll

/-- Insert every entry in turn into an empty map. -/
def insertAll (entries : List (Key × Value)) : List (Key × Value) :=
  entries.foldl (fun map entry => insertEntry entry.1 entry.2 map) []

theorem increasing_insertAll (entries : List (Key × Value)) : Increasing (insertAll entries) := by
  have kept (map : List (Key × Value)) (ordered : Increasing map) :
      Increasing (entries.foldl (fun map entry => insertEntry entry.1 entry.2 map) map) := by
    induction entries generalizing map with
    | nil => exact ordered
    | cons entry rest ih => exact ih _ (ordered.insertEntry entry.1 entry.2)
  exact kept [] List.Pairwise.nil

theorem perm_insertEntry {key : Key} {value : Value} {entries : List (Key × Value)}
    (absent : key ∉ entries.map Prod.fst) :
    (insertEntry key value entries).Perm ((key, value) :: entries) := by
  induction entries with
  | nil => exact List.Perm.refl _
  | cons head rest ih =>
    obtain ⟨name, held⟩ := head
    simp only [List.map_cons, List.mem_cons, not_or] at absent
    rw [insertEntry]
    split
    · exact List.Perm.refl _
    · rw [if_neg absent.1]
      exact ((ih absent.2).cons _).trans (List.Perm.swap _ _ _)

private theorem perm_insertOnto {entries map : List (Key × Value)}
    (apart : ((map ++ entries).map Prod.fst).Nodup) :
    (entries.foldl (fun map entry => insertEntry entry.1 entry.2 map) map).Perm
      (map ++ entries) := by
  induction entries generalizing map with
  | nil => simp
  | cons entry rest ih =>
    have absent : entry.1 ∉ map.map Prod.fst := by
      intro member
      rw [List.map_append, List.nodup_append] at apart
      exact apart.2.2 entry.1 member entry.1 (by simp) rfl
    have here : (insertEntry entry.1 entry.2 map ++ rest).Perm (map ++ entry :: rest) :=
      ((perm_insertEntry absent).append_right rest).trans List.perm_middle.symm
    exact (ih ((here.map Prod.fst).nodup_iff.mpr apart)).trans here

/-- Entries with keys of their own are all kept. -/
theorem perm_insertAll {entries : List (Key × Value)} (apart : (entries.map Prod.fst).Nodup) :
    (insertAll entries).Perm entries :=
  perm_insertOnto (by simpa using apart)

theorem Increasing.nodup {entries : List (Key × Value)} (ordered : Increasing entries) :
    (entries.map Prod.fst).Nodup :=
  List.pairwise_map.mpr (ordered.imp fun below => ne_of_lt below)

/-- Only the keys are ordered. -/
theorem Increasing.of_keys {Other : Type v} {entries : List (Key × Value)}
    {others : List (Key × Other)} (ordered : Increasing entries)
    (same : others.map Prod.fst = entries.map Prod.fst) : Increasing others := by
  have keys : (entries.map Prod.fst).Pairwise (· < ·) := List.pairwise_map.mpr ordered
  exact List.pairwise_map.mp (same ▸ keys)

/-- Two orderings of the same entries are the same. -/
theorem Increasing.eq_of_perm {first second : List (Key × Value)} (ordered : Increasing first)
    (other : Increasing second) (same : first.Perm second) : first = second := by
  refine List.Perm.eq_of_pairwise ?_ ordered other same
  intro one two _ _ below above
  exact absurd (below.trans above) (lt_irrefl _)

theorem insertAll_of_increasing {entries : List (Key × Value)} (ordered : Increasing entries) :
    insertAll entries = entries :=
  (increasing_insertAll entries).eq_of_perm ordered (perm_insertAll ordered.nodup)

omit [LinearOrder Key] in
/-- Entries with keys of their own are looked up in any order. -/
theorem find_of_perm [BEq Key] [LawfulBEq Key] {entries others : List (Key × Value)}
    (same : entries.Perm others) (apart : (entries.map Prod.fst).Nodup) (key : Key) :
    (entries.find? fun entry => entry.1 == key) = others.find? fun entry => entry.1 == key := by
  cases lookup : others.find? fun entry => entry.1 == key with
  | none =>
    rw [List.find?_eq_none] at lookup ⊢
    exact fun entry member => lookup entry (same.mem_iff.mp member)
  | some entry =>
    have present := same.mem_iff.mpr (List.mem_of_find?_eq_some lookup)
    have keyed : entry.1 = key := by simpa using List.find?_some lookup
    cases found : entries.find? fun entry => entry.1 == key with
    | none => exact absurd keyed (by simpa using List.find?_eq_none.mp found entry present)
    | some other =>
      have held : other.1 = key := by simpa using List.find?_some found
      have alike : other.1 = entry.1 := held.trans keyed.symm
      rw [List.inj_on_of_nodup_map apart (List.mem_of_find?_eq_some found) present alike]

private theorem mem_insertOnto {entries map : List (Key × Value)} {entry : Key × Value}
    (member : entry ∈ entries.foldl (fun map entry => insertEntry entry.1 entry.2 map) map) :
    entry ∈ map ∨ entry ∈ entries := by
  induction entries generalizing map with
  | nil => exact .inl member
  | cons head rest ih =>
    rcases ih member with earlier | later
    · rcases mem_insertEntry earlier with same | held
      · exact .inr (by simp [same])
      · exact .inl held
    · exact .inr (List.mem_cons_of_mem _ later)

theorem mem_insertAll {entries : List (Key × Value)} {entry : Key × Value}
    (member : entry ∈ insertAll entries) : entry ∈ entries := by
  simpa using mem_insertOnto member

/-- Change the value of every entry. -/
def mapValues {Image : Type v} (image : Value → Image) (entries : List (Key × Value)) :
    List (Key × Image) :=
  entries.map fun entry => (entry.1, image entry.2)

omit [LinearOrder Key] in
theorem keys_mapValues {Image : Type v} (image : Value → Image) (entries : List (Key × Value)) :
    (mapValues image entries).map Prod.fst = entries.map Prod.fst := by
  rw [mapValues, List.map_map]
  rfl

theorem insertEntry_mapValues {Image : Type v} (image : Value → Image) (key : Key) (value : Value)
    (entries : List (Key × Value)) :
    insertEntry key (image value) (mapValues image entries) =
      mapValues image (insertEntry key value entries) := by
  induction entries with
  | nil => rfl
  | cons head rest ih =>
    rw [mapValues] at ih ⊢
    rw [List.map_cons, insertEntry, insertEntry]
    split
    · rfl
    · split
      · rfl
      · rw [ih]
        rfl

/-- Where an entry goes does not depend on its value. -/
theorem insertAll_mapValues {Image : Type v} (image : Value → Image)
    (entries : List (Key × Value)) :
    insertAll (mapValues image entries) = mapValues image (insertAll entries) := by
  have kept (map : List (Key × Value)) :
      (mapValues image entries).foldl (fun map entry => insertEntry entry.1 entry.2 map)
        (mapValues image map) =
        mapValues image (entries.foldl (fun map entry => insertEntry entry.1 entry.2 map) map) := by
    induction entries generalizing map with
    | nil => rfl
    | cons head rest ih =>
      change (mapValues image rest).foldl _
        (insertEntry head.1 (image head.2) (mapValues image map)) = _
      rw [insertEntry_mapValues]
      exact ih _
  exact kept []

end InsertAll

/-- A finite map that iterates in key order. -/
structure OrdMap (Key : Type u) (Value : Type v) [LinearOrder Key] where
  entries : List (Key × Value)
  increasing : Increasing entries

namespace OrdMap

def empty : OrdMap Key Value := ⟨[], List.Pairwise.nil⟩

/-- Insert or replace. The last write for a key wins. -/
def insert (map : OrdMap Key Value) (key : Key) (value : Value) : OrdMap Key Value :=
  ⟨insertEntry key value map.entries, map.increasing.insertEntry key value⟩

def get? (map : OrdMap Key Value) (key : Key) : Option Value :=
  (map.entries.find? fun entry => entry.1 == key).map Prod.snd

theorem find_insertEntry (key other : Key) (value : Value) (entries : List (Key × Value)) :
    ((insertEntry key value entries).find? fun entry => entry.1 == other).map Prod.snd =
      if other = key then some value
      else (entries.find? fun entry => entry.1 == other).map Prod.snd := by
  induction entries with
  | nil =>
    by_cases same : other = key
    · simp [insertEntry, same]
    · simp [insertEntry, same, Ne.symm same]
  | cons head rest ih =>
    obtain ⟨name, held⟩ := head
    simp only [insertEntry]
    by_cases same : other = key
    · subst other
      split
      · simp
      · split
        · simp
        · rename_i different
          rw [List.find?_cons_of_neg (by simpa using Ne.symm different), ih]
          simp
    · simp only [same, ↓reduceIte] at ih ⊢
      split
      · rw [List.find?_cons_of_neg (by simpa using Ne.symm same)]
      · split
        · rename_i _ replaced
          have skipped : ¬ name = other := by
            intro hit
            exact same (hit.symm.trans replaced.symm)
          rw [List.find?_cons_of_neg (by simpa using Ne.symm same),
            List.find?_cons_of_neg (by simpa using skipped)]
        · by_cases hit : name = other
          · simp [hit]
          · rw [List.find?_cons_of_neg (by simpa using hit), ih,
              List.find?_cons_of_neg (by simpa using hit)]

@[simp] theorem get?_insert (map : OrdMap Key Value) (key other : Key) (value : Value) :
    (map.insert key value).get? other = if other = key then some value else map.get? other :=
  find_insertEntry key other value map.entries

end OrdMap

end OaGateway.Lib
