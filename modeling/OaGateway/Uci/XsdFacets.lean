import OaGateway.Uci.XsdBuild

/-! The facets of a restriction: which of them count, and which one more would
change nothing. -/
namespace OaGateway.Uci.Xsd

open Lib
open Lib.Xml (ElementNode)

/-- A facet of which the last one counts, by its tag. -/
def Facet.bound : Facet → Option (String × (Nat ⊕ F64))
  | enumeration _ | pattern _ => none
  | length count => some ("length", .inl count)
  | minLength count => some ("minLength", .inl count)
  | maxLength count => some ("maxLength", .inl count)
  | minInclusive number => some ("minInclusive", .inr number)
  | maxInclusive number => some ("maxInclusive", .inr number)
  | minExclusive number => some ("minExclusive", .inr number)
  | maxExclusive number => some ("maxExclusive", .inr number)

/-- The value of such a facet, if it is the one of a tag. -/
def Facet.boundOf (tag : String) (facet : Facet) : Option (Nat ⊕ F64) :=
  facet.bound.bind fun entry => if tag = entry.1 then some entry.2 else none

/-- The bound in force for a tag. -/
def boundIn (facets : Facets) (tag : String) : Option (Nat ⊕ F64) :=
  match tag with
  | "length" => facets.length.map .inl
  | "minLength" => facets.minLength.map .inl
  | "maxLength" => facets.maxLength.map .inl
  | "minInclusive" => facets.minInclusive.map .inr
  | "maxInclusive" => facets.maxInclusive.map .inr
  | "minExclusive" => facets.minExclusive.map .inr
  | "maxExclusive" => facets.maxExclusive.map .inr
  | _ => none

def Facet.enumerated : Facet → Option String
  | enumeration value => some value
  | _ => none

def Facet.patterned : Facet → Option Pattern
  | pattern matcher => some matcher
  | _ => none

theorem boundIn_put (facets : Facets) (facet : Facet) (tag : String) :
    boundIn (put facets facet) tag = (facet.boundOf tag).or (boundIn facets tag) := by
  cases facet <;> simp only [put, boundIn, Facet.boundOf, Facet.bound, Option.bind_none,
    Option.bind_some, Option.none_or]
  all_goals
    split <;> simp_all

theorem boundIn_foldl (facets : Facets) (list : List Facet) (tag : String) :
    boundIn (list.foldl put facets) tag = ((list.filterMap (Facet.boundOf tag)).getLast?).or
      (boundIn facets tag) := by
  induction list generalizing facets with
  | nil => simp
  | cons facet rest ih =>
    rw [List.foldl_cons, ih, boundIn_put, List.filterMap_cons]
    cases facet.boundOf tag with
    | none => simp
    | some value => cases later : (rest.filterMap (Facet.boundOf tag)).getLast? <;>
      simp_all [List.getLast?_cons]

theorem enumeration_foldl (facets : Facets) (list : List Facet) :
    (list.foldl put facets).enumeration = facets.enumeration ++
      list.filterMap Facet.enumerated := by
  induction list generalizing facets with
  | nil => simp
  | cons facet rest ih =>
    rw [List.foldl_cons, ih, List.filterMap_cons]
    cases facet <;> simp [put, Facet.enumerated]

theorem patterns_foldl (facets : Facets) (list : List Facet) :
    (list.foldl put facets).patterns = facets.patterns ++ list.filterMap Facet.patterned := by
  induction list generalizing facets with
  | nil => simp
  | cons facet rest ih =>
    rw [List.foldl_cons, ih, List.filterMap_cons]
    cases facet <;> simp [put, Facet.patterned]

theorem facets_ext {one two : Facets} (values : one.enumeration = two.enumeration)
    (patterns : one.patterns = two.patterns) (bounds : ∀ tag, boundIn one tag = boundIn two tag) :
    one = two := by
  have inl : Function.Injective (Option.map (Sum.inl : Nat → Nat ⊕ F64)) :=
    Option.map_injective Sum.inl_injective
  have inr : Function.Injective (Option.map (Sum.inr : F64 → Nat ⊕ F64)) :=
    Option.map_injective Sum.inr_injective
  cases one
  cases two
  simp only [Facets.mk.injEq]
  exact ⟨values, patterns, inl (bounds "length"), inl (bounds "minLength"),
    inl (bounds "maxLength"), inr (bounds "minInclusive"), inr (bounds "maxInclusive"),
      inr (bounds "minExclusive"), inr (bounds "maxExclusive")⟩

theorem Facet.boundOf_of_bound {facet : Facet} {tag : String} {value : Nat ⊕ F64}
    (bound : facet.bound = some (tag, value)) (other : String) :
    facet.boundOf other = if other = tag then some value else none := by
  simp [Facet.boundOf, bound]

theorem boundIn_empty (tag : String) : boundIn {} tag = none := by
  unfold boundIn
  split <;> rfl

/-- The last of some values with one more in the middle. -/
theorem getLast?_middle {Value : Type} (front back : List Value) (value : Value) :
    (front ++ value :: back).getLast? = (front ++ back).getLast? ↔ back ≠ [] ∨
      front.getLast? = some value := by
  cases back with
  | nil => simp [eq_comm]
  | cons first rest => simp [List.getLast?_append, List.getLast?_cons_cons]

/-- One more facet changes nothing when it is a bound that a later one replaces,
or that is in force there already. -/
theorem foldl_put_middle (front back : List Facet) (facet : Facet) :
    (front ++ facet :: back).foldl put {} = (front ++ back).foldl put {} ↔
      ∃ tag value, facet.bound = some (tag, value) ∧
        (back.filterMap (Facet.boundOf tag) ≠ [] ∨
            (front.filterMap (Facet.boundOf tag)).getLast? = some value) := by
  constructor
  · intro same
    cases bound : facet.bound with
    | none =>
      have values := congrArg (fun facets => facets.enumeration.length) same
      have patterns := congrArg (fun facets => facets.patterns.length) same
      simp only [enumeration_foldl, patterns_foldl, List.filterMap_append,
        List.filterMap_cons] at values patterns
      cases facet <;> simp_all [Facet.bound, Facet.enumerated, Facet.patterned]
    | some entry =>
      obtain ⟨tag, value⟩ := entry
      refine ⟨tag, value, rfl, ?_⟩
      have bounds := congrArg (fun facets => boundIn facets tag) same
      simp only [boundIn_foldl, boundIn_empty, Option.or_none, List.filterMap_append,
        List.filterMap_cons, Facet.boundOf_of_bound bound, if_true] at bounds
      exact (getLast?_middle _ _ _).mp bounds
  · rintro ⟨tag, value, bound, idle⟩
    refine facets_ext ?_ ?_ fun other => ?_
    · simp only [enumeration_foldl, List.filterMap_append, List.filterMap_cons]
      cases facet <;> first | rfl | cases bound
    · simp only [patterns_foldl, List.filterMap_append, List.filterMap_cons]
      cases facet <;> first | rfl | cases bound
    · simp only [boundIn_foldl, boundIn_empty, Option.or_none, List.filterMap_append,
        List.filterMap_cons, Facet.boundOf_of_bound bound]
      by_cases here : other = tag
      · subst here
        simp only [if_true]
        exact (getLast?_middle _ _ _).mpr idle
      · simp only [here, if_false]

def countTags : List String := ["length", "minLength", "maxLength"]

def numberTags : List String := ["minInclusive", "maxInclusive", "minExclusive", "maxExclusive"]

/-- The bound an element of a restriction says. -/
def nodeBound (node : ElementNode) : Option (Nat ⊕ F64) :=
  (node.attributeOf "value").bind fun value =>
    if node.localName ∈ countTags then (parseU64 value).map fun count => .inl count.toNat
    else if node.localName ∈ numberTags then (F64.parse value).map .inr
    else none

/-- The bounds under one tag, in order. -/
def boundsOf (tag : String) (nodes : List ElementNode) : List (Nat ⊕ F64) :=
  nodes.filterMap fun node => if tag = node.localName then nodeBound node else none

theorem count_eq_ok {name value what : String} {result : Nat} :
    count name value what = .ok result ↔ (parseU64 value).map Int.toNat = some result := by
  rw [count]
  split <;> simp_all [fail]

theorem number_eq_ok {name value what : String} {result : F64} :
    number name value what = .ok result ↔ F64.parse value = some result := by
  rw [number]
  split <;> simp_all [fail]

theorem mapError_eq_ok {Result : Type} {error : UciError} {run : Except UciError Result}
    {result : Result} :
    mapError error run = .ok result ↔ run = .ok result := by
  cases run <;> simp [mapError]

/-- What is read from an element as a bound is the bound it says. -/
theorem facet_bound {crates : Crates} {name : String} {node : ElementNode} {result : Option Facet}
    (read : facet crates name node = .ok result) :
    result.bind Facet.bound = (nodeBound node).map fun value => (node.localName, value) := by
  rw [facet] at read
  split at read
  · rename_i tag
    cases read
    simp [nodeBound, tag, countTags, numberTags]
  · obtain ⟨value, present, read⟩ := bind_eq_ok.mp read
    have valued := required_eq_ok.mp (mapError_eq_ok.mp present)
    split at read
    case h_1 tag | h_2 tag =>
      cases read
      simp [nodeBound, tag, countTags, numberTags, Facet.bound]
    case h_3 tag | h_4 tag | h_5 tag =>
      obtain ⟨counted, parsed, rfl⟩ := map_eq_ok.mp read
      obtain ⟨number, there, rfl⟩ := Option.map_eq_some_iff.mp (count_eq_ok.mp parsed)
      simp [nodeBound, tag, valued, there, countTags, Facet.bound]
    case h_6 tag | h_7 tag | h_8 tag | h_9 tag =>
      obtain ⟨numbered, parsed, rfl⟩ := map_eq_ok.mp read
      simp [nodeBound, tag, valued, number_eq_ok.mp parsed, countTags, numberTags, Facet.bound]
    case h_10 => cases read

/-- An element that says a bound is read. -/
theorem facet_of_nodeBound {crates : Crates} {name : String} {node : ElementNode}
    {value : Nat ⊕ F64} (bound : nodeBound node = some value) :
    ∃ read, facet crates name node = .ok (some read) := by
  obtain ⟨text, valued, bound⟩ := Option.bind_eq_some_iff.mp bound
  have present (error : UciError) : mapError error (required node "value") = .ok text :=
    mapError_eq_ok.mpr (required_eq_ok.mpr valued)
  split at bound
  · rename_i counts
    obtain ⟨number, parsed, -⟩ := Option.map_eq_some_iff.mp bound
    have counted (what : String) : count name text what = .ok number.toNat :=
      count_eq_ok.mpr (by simp [parsed])
    simp only [countTags, List.mem_cons, List.not_mem_nil, or_false] at counts
    rcases counts with tag | tag | tag
    all_goals
      rw [facet, if_neg (by simp [tag]), present]
      simp [tag, counted, Except.map, bind, Except.bind]
  · split at bound
    · rename_i numbers
      obtain ⟨number, parsed, -⟩ := Option.map_eq_some_iff.mp bound
      have numbered (what : String) : Xsd.number name text what = .ok number :=
        number_eq_ok.mpr parsed
      simp only [numberTags, List.mem_cons, List.not_mem_nil, or_false] at numbers
      rcases numbers with tag | tag | tag | tag
      all_goals
        rw [facet, if_neg (by simp [tag]), present]
        simp [tag, numbered, Except.map, bind, Except.bind]
    · cases bound

theorem boundsOf_eq {crates : Crates} {name : String} {nodes : List ElementNode}
    {results : List (Option Facet)} (read : collect (facet crates name) nodes = .ok results)
    (tag : String) :
    results.reduceOption.filterMap (Facet.boundOf tag) = boundsOf tag nodes := by
  have each := collect_eq_ok.mp read
  clear read
  induction each with
  | nil => rfl
  | @cons node result _ _ here _ ih =>
    have bound := facet_bound here
    rw [boundsOf, List.filterMap_cons, ← boundsOf, ← ih]
    cases result with
    | none =>
      have silent : nodeBound node = none := by simpa using bound.symm
      simp [silent, List.reduceOption_cons_of_none]
    | some facet =>
      rw [List.reduceOption_cons_of_some, List.filterMap_cons]
      have own : facet.boundOf tag = if tag = node.localName then nodeBound node else none := by
        rw [Facet.boundOf, show facet.bound = _ from bound]
        cases nodeBound node <;> simp
      rw [own]

end OaGateway.Uci.Xsd
