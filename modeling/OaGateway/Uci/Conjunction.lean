import OaGateway.Uci.Leaves

/-! The facets gathered along a restriction chain against the facets of its
links one by one. -/
namespace OaGateway.Uci

open Lib

section Holding

/-- A bound that is not there asks for nothing. -/
def Meets {Bound : Type} (bound : Option Bound) (meets : Bound → Prop) : Prop :=
  ∀ limit ∈ bound, meets limit

/-- The four bounds against a number. -/
structure InRange (minInclusive maxInclusive minExclusive maxExclusive : Option F64)
    (number : F64) : Prop where
  minInclusive : Meets minInclusive fun min => F64.lt number min = false
  maxInclusive : Meets maxInclusive fun max => F64.lt max number = false
  minExclusive : Meets minExclusive fun min => F64.le number min = false
  maxExclusive : Meets maxExclusive fun max => F64.le max number = false

/-- A link's bounds say something about a number only. -/
def Facets.InRange (facets : Facets) (text : String) : Prop :=
  ∀ number ∈ F64.parse text,
    Uci.InRange facets.minInclusive facets.maxInclusive facets.minExclusive
      facets.maxExclusive number

def Effective.InRange (facets : Effective) (text : String) : Prop :=
  ∀ number ∈ F64.parse text,
    Uci.InRange facets.minInclusive facets.maxInclusive facets.minExclusive
      facets.maxExclusive number

/-- A text satisfies every facet of one link, in the unit of its length. -/
structure Facets.Holds (facets : Facets) (len : Nat) (text : String) : Prop where
  enumeration : facets.enumeration ≠ [] → text ∈ facets.enumeration
  patterns : facets.patterns ≠ [] → ∃ pattern ∈ facets.patterns, pattern.accepts text = true
  length : Meets facets.length (len = ·)
  minLength : Meets facets.minLength (· ≤ len)
  maxLength : Meets facets.maxLength (len ≤ ·)
  range : facets.InRange text

/-- A text satisfies the facets gathered. -/
structure Effective.Holds (facets : Effective) (len : Nat) (text : String) : Prop where
  enumeration : Meets facets.enumeration (text ∈ ·)
  patterns : ∀ alternatives ∈ facets.patterns, ∃ pattern ∈ alternatives, pattern.accepts text = true
  length : Meets facets.length (len = ·)
  minLength : Meets facets.minLength (· ≤ len)
  maxLength : Meets facets.maxLength (len ≤ ·)
  range : facets.InRange text

end Holding

section Merging

theorem meets_none {Bound : Type} (meets : Bound → Prop) : Meets none meets := nofun

theorem meets_or {Bound : Type} {first second : Option Bound} {meets : Bound → Prop}
    (agree : ∀ limit ∈ first, ∀ other ∈ second, other = limit) :
    Meets (first.or second) meets ↔ Meets first meets ∧ Meets second meets := by
  cases first with
  | none => simp [Meets]
  | some limit =>
    cases second with
    | none => simp [Meets]
    | some other =>
      obtain rfl := agree limit rfl other rfl
      simp [Meets]

/-- The stricter of two bounds is met when both are. -/
theorem meets_stricter {Bound : Type} {keep : Bound → Bound → Bound} {first second : Option Bound}
    {meets : Bound → Prop}
    (both : ∀ limit ∈ first, ∀ other ∈ second, meets (keep limit other) ↔
      meets limit ∧ meets other) :
    Meets (stricter keep first second) meets ↔ Meets first meets ∧ Meets second meets := by
  cases first with
  | none => cases second <;> simp [Meets, stricter]
  | some limit =>
    cases second with
    | none => simp [Meets, stricter]
    | some other => simpa [Meets, stricter] using both limit rfl other rfl

/-- The four bounds of a link are numbers. -/
structure OrderedBounds (minInclusive maxInclusive minExclusive maxExclusive : Option F64) :
    Prop where
  minInclusive : Meets minInclusive F64.Ordered
  maxInclusive : Meets maxInclusive F64.Ordered
  minExclusive : Meets minExclusive F64.Ordered
  maxExclusive : Meets maxExclusive F64.Ordered

def Facets.Ordered (facets : Facets) : Prop :=
  OrderedBounds facets.minInclusive facets.maxInclusive facets.minExclusive facets.maxExclusive

def Effective.Ordered (facets : Effective) : Prop :=
  OrderedBounds facets.minInclusive facets.maxInclusive facets.minExclusive facets.maxExclusive

theorem ordered_stricter {keep : F64 → F64 → F64} {first second : Option F64}
    (kept : ∀ {one two : F64}, one.Ordered → two.Ordered → (keep one two).Ordered)
    (known : Meets first F64.Ordered) (also : Meets second F64.Ordered) :
    Meets (stricter keep first second) F64.Ordered := by
  cases first with
  | none => exact also
  | some limit =>
    cases second with
    | none => simpa [Meets, stricter] using known
    | some other =>
      have merged := kept (known limit rfl) (also other rfl)
      simpa [Meets, stricter] using merged

theorem Effective.Ordered.addFacets {out : Effective} {facets : Facets} (known : out.Ordered)
    (also : facets.Ordered) : (Schema.addFacets out facets).Ordered where
  minInclusive := ordered_stricter F64.Ordered.max known.minInclusive also.minInclusive
  maxInclusive := ordered_stricter F64.Ordered.min known.maxInclusive also.maxInclusive
  minExclusive := ordered_stricter F64.Ordered.max known.minExclusive also.minExclusive
  maxExclusive := ordered_stricter F64.Ordered.min known.maxExclusive also.maxExclusive

/-- What the facets gathered so far share with the links still to come. -/
structure Fits (out : Effective) (links : List Facets) : Prop where
  ordered : out.Ordered
  enumeration : ∀ allowed ∈ out.enumeration, ∀ link ∈ links, link.enumeration ≠ [] →
    allowed ⊆ link.enumeration
  length : ∀ exact ∈ out.length, ∀ link ∈ links, ∀ other ∈ link.length, other = exact

variable {out : Effective} {facets : Facets} {len : Nat} {text : String}

theorem inRange_addFacets (known : out.Ordered) (also : facets.Ordered) :
    (Schema.addFacets out facets).InRange text ↔ out.InRange text ∧ facets.InRange text := by
  simp only [Effective.InRange, Facets.InRange, ← forall_and]
  refine forall₂_congr fun number _ => ?_
  have low := @meets_stricter _ F64.max out.minInclusive facets.minInclusive
    (fun min => F64.lt number min = false) fun limit here other there =>
      F64.lt_max_eq_false number (known.minInclusive limit here) (also.minInclusive other there)
  have high := @meets_stricter _ F64.min out.maxInclusive facets.maxInclusive
    (fun max => F64.lt max number = false) fun limit here other there =>
      F64.min_lt_eq_false number (known.maxInclusive limit here) (also.maxInclusive other there)
  have above := @meets_stricter _ F64.max out.minExclusive facets.minExclusive
    (fun min => F64.le number min = false) fun limit here other there =>
      F64.le_max_eq_false number (known.minExclusive limit here) (also.minExclusive other there)
  have under := @meets_stricter _ F64.min out.maxExclusive facets.maxExclusive
    (fun max => F64.le max number = false) fun limit here other there =>
      F64.min_le_eq_false number (known.maxExclusive limit here) (also.maxExclusive other there)
  constructor
  · rintro ⟨one, two, three, four⟩
    obtain ⟨one, one'⟩ := low.mp one
    obtain ⟨two, two'⟩ := high.mp two
    obtain ⟨three, three'⟩ := above.mp three
    obtain ⟨four, four'⟩ := under.mp four
    exact ⟨⟨one, two, three, four⟩, ⟨one', two', three', four'⟩⟩
  · rintro ⟨first, second⟩
    exact ⟨low.mpr ⟨first.minInclusive, second.minInclusive⟩,
      high.mpr ⟨first.maxInclusive, second.maxInclusive⟩,
        above.mpr ⟨first.minExclusive, second.minExclusive⟩,
        under.mpr ⟨first.maxExclusive, second.maxExclusive⟩⟩

theorem enumeration_addFacets (narrower : ∀ allowed ∈ out.enumeration, facets.enumeration ≠ [] →
      allowed ⊆ facets.enumeration) :
    Meets (Schema.addFacets out facets).enumeration (text ∈ ·) ↔
      Meets out.enumeration (text ∈ ·) ∧ (facets.enumeration ≠ [] → text ∈ facets.enumeration) := by
  rw [Schema.addFacets]
  cases gathered : out.enumeration with
  | none =>
    cases own : facets.enumeration with
    | nil => simp [Meets]
    | cons value rest => simp [Meets]
  | some allowed =>
    simp only [Meets, Option.isNone_some, Bool.false_and, Bool.false_eq_true, if_false,
      Option.mem_some_iff, forall_eq', iff_self_and]
    exact fun inside some => narrower allowed gathered some inside

theorem patterns_addFacets :
    (∀ alternatives ∈ (Schema.addFacets out facets).patterns, ∃ pattern ∈ alternatives,
      pattern.accepts text = true) ↔
      (∀ alternatives ∈ out.patterns, ∃ pattern ∈ alternatives, pattern.accepts text = true) ∧
        (facets.patterns ≠ [] → ∃ pattern ∈ facets.patterns, pattern.accepts text = true) := by
  rw [Schema.addFacets]
  cases own : facets.patterns with
  | nil => simp
  | cons pattern rest => simp [or_imp, forall_and]

/-- One link more is one condition more. -/
theorem holds_addFacets (fits : Fits out (facets :: rest)) (also : facets.Ordered) :
    (Schema.addFacets out facets).Holds len text ↔ out.Holds len text ∧ facets.Holds len text := by
  have range := @inRange_addFacets out facets text fits.ordered also
  have values := @enumeration_addFacets out facets text fun allowed here =>
    fits.enumeration allowed here facets List.mem_cons_self
  have patterns := @patterns_addFacets out facets text
  have exact := @meets_or _ out.length facets.length (len = ·) fun limit here other there =>
    fits.length limit here facets List.mem_cons_self other there
  have least := @meets_stricter _ Nat.max out.minLength facets.minLength (· ≤ len) fun _ _ _ _ =>
    Nat.max_le
  have most := @meets_stricter _ Nat.min out.maxLength facets.maxLength (len ≤ ·) fun _ _ _ _ =>
    Nat.le_min
  constructor
  · rintro ⟨one, two, three, four, five, six⟩
    obtain ⟨one, one'⟩ := values.mp one
    obtain ⟨two, two'⟩ := patterns.mp two
    obtain ⟨three, three'⟩ := exact.mp three
    obtain ⟨four, four'⟩ := least.mp four
    obtain ⟨five, five'⟩ := most.mp five
    obtain ⟨six, six'⟩ := range.mp six
    exact ⟨⟨one, two, three, four, five, six⟩, ⟨one', two', three', four', five', six'⟩⟩
  · rintro ⟨first, second⟩
    exact ⟨values.mpr ⟨first.enumeration, second.enumeration⟩,
      patterns.mpr ⟨first.patterns, second.patterns⟩, exact.mpr ⟨first.length, second.length⟩,
        least.mpr ⟨first.minLength, second.minLength⟩,
      most.mpr ⟨first.maxLength, second.maxLength⟩, range.mpr ⟨first.range, second.range⟩⟩

end Merging

section Chains

/-- The named types from one to the primitive they restrict, with their facets. -/
inductive Chain (schema : Schema) : String → List (String × Facets) → String → Prop where
  | primitive (xs : Schema.isXsName name = true) (free : schema.simpleTypes.lookup name = none) :
      Chain schema name [] name
  | link (entry : schema.simpleTypes.lookup name = some simple)
      (rest : Chain schema simple.base links last) :
      Chain schema name ((name, simple.facets) :: links) last

/-- The nearest enumeration that says anything. -/
def nearest (links : List Facets) : Option (List String) :=
  (links.map Facets.enumeration).find? fun allowed => !allowed.isEmpty

/-- Each enumeration is a part of the nearest one further up. -/
def Narrowing : List Facets → Prop
  | [] => True
  | facets :: rest =>
    (facets.enumeration ≠ [] → ∀ allowed ∈ nearest rest, facets.enumeration ⊆ allowed) ∧
      Narrowing rest

/-- What a chain of restrictions has to keep to. -/
structure Restricts (links : List Facets) : Prop where
  narrowing : Narrowing links
  lengths : ∀ link ∈ links, ∀ exact ∈ link.length, ∀ other ∈ links,
    ∀ more ∈ other.length, more = exact
  ordered : ∀ link ∈ links, link.Ordered

theorem Restricts.tail (restricts : Restricts (facets :: rest)) : Restricts rest where
  narrowing := restricts.narrowing.2
  lengths link member exact here other inside :=
    restricts.lengths link (List.mem_cons_of_mem _ member) exact here other
      (List.mem_cons_of_mem _ inside)
  ordered link member := restricts.ordered link (List.mem_cons_of_mem _ member)

/-- An enumeration is then a part of every one further up. -/
theorem subset_of_narrowing {facets link : Facets} {rest : List Facets}
    (narrowing : Narrowing (facets :: rest)) (own : facets.enumeration ≠ []) (member : link ∈ rest)
    (other : link.enumeration ≠ []) :
    facets.enumeration ⊆ link.enumeration := by
  induction rest generalizing facets with
  | nil => cases member
  | cons head rest ih =>
    obtain ⟨here, above⟩ := narrowing
    by_cases silent : head.enumeration = []
    · have skipped : nearest (head :: rest) = nearest rest := by simp [nearest, silent]
      rw [skipped] at here
      rcases List.mem_cons.mp member with rfl | later
      · exact absurd silent other
      · exact ih ⟨here, above.2⟩ own later
    · have first : head.enumeration ∈ nearest (head :: rest) := by simp [nearest, silent]
      have step := here own head.enumeration first
      rcases List.mem_cons.mp member with rfl | later
      · exact step
      · exact fun value inside => ih above silent later (step inside)

theorem Fits.addFacets {out : Effective} {facets : Facets} {rest : List Facets}
    (fits : Fits out (facets :: rest)) (restricts : Restricts (facets :: rest)) :
    Fits (Schema.addFacets out facets) rest where
  ordered := fits.ordered.addFacets (restricts.ordered facets List.mem_cons_self)
  enumeration := by
    intro allowed gathered link member some
    simp only [Schema.addFacets] at gathered
    split at gathered
    · rename_i fresh
      simp only [Bool.and_eq_true, Bool.not_eq_true', List.isEmpty_eq_false_iff] at fresh
      cases gathered
      exact subset_of_narrowing restricts.narrowing fresh.2 member some
    · exact fits.enumeration allowed gathered link (List.mem_cons_of_mem _ member) some
  length := by
    intro exact gathered link member other there
    simp only [Schema.addFacets, Option.mem_def, Option.or_eq_some_iff] at gathered
    rcases gathered with before | ⟨-, own⟩
    · exact fits.length exact before link (List.mem_cons_of_mem _ member) other there
    · exact restricts.lengths facets List.mem_cons_self exact own link
        (List.mem_cons_of_mem _ member) other there

/-- The facets gathered hold exactly when those of each link do. -/
theorem holds_foldl {links : List Facets} {out : Effective} {len : Nat} {text : String}
    (restricts : Restricts links) (fits : Fits out links) :
    (links.foldl Schema.addFacets out).Holds len text ↔
      out.Holds len text ∧ ∀ link ∈ links, link.Holds len text := by
  induction links generalizing out with
  | nil => simp
  | cons facets rest ih =>
    rw [List.foldl_cons, ih restricts.tail (fits.addFacets restricts),
      holds_addFacets fits (restricts.ordered facets List.mem_cons_self),
        List.forall_mem_cons, and_assoc]

theorem fits_start (links : List Facets) : Fits {} links where
  ordered := ⟨meets_none _, meets_none _, meets_none _, meets_none _⟩
  enumeration := by simp
  length := by simp

theorem holds_start (len : Nat) (text : String) : ({} : Effective).Holds len text where
  enumeration := meets_none _
  patterns := by simp
  length := meets_none _
  minLength := meets_none _
  maxLength := meets_none _
  range := fun _ _ => ⟨meets_none _, meets_none _, meets_none _, meets_none _⟩

variable {schema : Schema}

theorem facetsLoop_of_chain {links : List (String × Facets)}
    (chain : Chain schema typeName links last) (few : links.length ≤ fuel) (out : Effective) :
    schema.facetsLoop fuel typeName out = (links.map Prod.snd).foldl Schema.addFacets out := by
  induction chain generalizing fuel out with
  | primitive xs free => cases fuel <;> simp [Schema.facetsLoop, free]
  | link entry rest ih =>
    cases fuel with
    | zero => simp at few
    | succ fuel =>
      rw [Schema.facetsLoop, entry]
      exact ih (by simpa using few) _

theorem primitiveLoop_of_chain {links : List (String × Facets)}
    (chain : Chain schema typeName links last) (few : links.length ≤ fuel)
    (named : ∀ link ∈ links, Schema.isXsName link.1 = false) :
    schema.primitiveLoop fuel typeName = last := by
  induction chain generalizing fuel with
  | primitive xs free => cases fuel <;> simp [Schema.primitiveLoop, xs]
  | link entry rest ih =>
    cases fuel with
    | zero => simp at few
    | succ fuel =>
      obtain ⟨here, above⟩ := List.forall_mem_cons.mp named
      rw [Schema.primitiveLoop, here, entry]
      exact ih (by simpa using few) above

end Chains

section Values
variable {crates : Crates} {schema : Schema}

theorem rangeFindings_eq_nil {text typeName : String} :
    rangeFindings crates schema text typeName = [] ↔
      (schema.effectiveFacets typeName).InRange text := by
  rw [rangeFindings, Effective.InRange]
  cases F64.parse text with
  | none => simp
  | some number =>
    simp only [List.append_eq_nil_iff, finding_eq_nil, Option.mem_some_iff, forall_eq']
    constructor
    · rintro ⟨⟨⟨low, high⟩, above⟩, under⟩
      exact ⟨low, high, above, under⟩
    · rintro ⟨low, high, above, under⟩
      exact ⟨⟨⟨low, high⟩, above⟩, under⟩

theorem holds_of_findings {text typeName : String} :
    formFindings schema text typeName ++ rangeFindings crates schema text typeName = [] ↔
      (schema.effectiveFacets typeName).Holds (valueLength text (schema.primitive typeName)).1
          text := by
  rw [List.append_eq_nil_iff, rangeFindings_eq_nil, formFindings]
  simp only [List.append_eq_nil_iff, finding_eq_nil, List.map_eq_nil_iff, List.filter_eq_nil_iff,
    Bool.not_eq_false', List.contains_iff_mem, bne_eq_false_iff_eq,
      decide_eq_false_iff_not, Nat.not_lt,
    gt_iff_lt, Bool.not_eq_true', Bool.not_eq_false, List.any_eq_true]
  constructor
  · rintro ⟨⟨⟨values, ⟨exact, least⟩, most⟩, patterns⟩, range⟩
    exact ⟨values, patterns, exact, least, most, range⟩
  · rintro ⟨values, patterns, exact, least, most, range⟩
    exact ⟨⟨⟨values, ⟨exact, least⟩, most⟩, patterns⟩, range⟩

theorem valueFindings_eq_nil {text typeName : String} :
    valueFindings crates schema text typeName = [] ↔
      Primitive.refuses (Primitive.kind (schema.primitive typeName)) text = none ∧
        (schema.effectiveFacets typeName).Holds (valueLength text (schema.primitive typeName)).1
            text := by
  rw [valueFindings_eq]
  cases Primitive.refuses (Primitive.kind (schema.primitive typeName)) text with
  | some expected => simp
  | none =>
    simp only [true_and]
    exact holds_of_findings

/-- A text is free of violations exactly when it is one of the primitive's and
satisfies each link's facets on its own. -/
theorem valueFindings_conjunction {typeName : String} {links : List (String × Facets)}
    (chain : Chain schema typeName links last) (few : links.length ≤ maxSimpleDepth)
    (restricts : Restricts (links.map Prod.snd)) (text : String) :
    (valueFindings crates schema text typeName = [] ↔
      Primitive.refuses (Primitive.kind (schema.primitive typeName)) text = none ∧
        ∀ link ∈ links, link.2.Holds (valueLength text (schema.primitive typeName)).1 text) ∧
      ((∀ link ∈ links, Schema.isXsName link.1 = false) → schema.primitive typeName = last) := by
  refine ⟨?_, primitiveLoop_of_chain chain few⟩
  rw [valueFindings_eq_nil, Schema.effectiveFacets, facetsLoop_of_chain chain few,
    holds_foldl restricts (fits_start _), List.forall_mem_map]
  simp only [holds_start, true_and]

/-- A code of at most three letters, and the codes that are grades. -/
def codeFacets : Facets := { enumeration := ["A", "B", "C"], maxLength := some 3 }

def gradeFacets : Facets := { enumeration := ["A", "B"], minLength := some 1 }

def gradeSchema : Schema where
  globalElements := ∅
  complexTypes := ∅
  simpleTypes := Finmap.insert "GradeType" ⟨"CodeType", gradeFacets⟩
    (Finmap.insert "CodeType" ⟨"xs:string", codeFacets⟩ ∅)

theorem chain_grade :
    Chain gradeSchema "GradeType" [("GradeType", gradeFacets), ("CodeType", codeFacets)]
      "xs:string" := by
  have first : gradeSchema.simpleTypes.lookup "GradeType" = some ⟨"CodeType", gradeFacets⟩ := rfl
  have second : gradeSchema.simpleTypes.lookup "CodeType" = some ⟨"xs:string", codeFacets⟩ := rfl
  exact .link first (.link second (.primitive rfl rfl))

theorem restricts_grade : Restricts [gradeFacets, codeFacets] where
  narrowing := by simp [Narrowing, nearest, gradeFacets, codeFacets]
  lengths := by simp [gradeFacets, codeFacets]
  ordered := by
    intro link member
    have free : ∀ link ∈ [gradeFacets, codeFacets], link.minInclusive = none ∧
      link.maxInclusive = none ∧
        link.minExclusive = none ∧ link.maxExclusive = none := by
      simp [gradeFacets, codeFacets]
    obtain ⟨one, two, three, four⟩ := free link member
    exact ⟨by simp [one, Meets], by simp [two, Meets], by simp [three, Meets], by
      simp [four, Meets]⟩

/-- A grade satisfies the facets of both links. -/
theorem valueFindings_grade :
    valueFindings bareCrates gradeSchema "B" "GradeType" = [] ∧
      ∀ link ∈ [("GradeType", gradeFacets), ("CodeType", codeFacets)], link.2.Holds 1 "B" := by
  have quiet : valueFindings bareCrates gradeSchema "B" "GradeType" = [] := by rfl
  have both := @valueFindings_conjunction bareCrates _ _ _ _ chain_grade (by decide)
    restricts_grade "B"
  exact ⟨quiet, (both.1.mp quiet).2⟩

end Values

end OaGateway.Uci
