import OaGateway.Lib.Text
import OaGateway.Lib.Xml.Skip

/-! White space after a document is nothing to the scanner. -/
namespace OaGateway.Lib.Xml

theorem isWhitespace_of_isSpace {c : Char} (space : isSpace c = true) : isWhitespace c = true := by
  simp only [isSpace, Bool.or_eq_true, beq_iff_eq] at space
  rcases space with ((rfl | rfl) | rfl) | rfl <;> rfl

/-- Bytes at the end of a text that no construct and no tag can close with. -/
structure Quiet (constructs : List Construct) (tail : Bytes) : Prop where
  markup : ∀ b ∈ tail, b ∉ [byte '<', byte '>', byte '!', byte '/', byte '"', byte '\'']
  opening : ∀ construct ∈ constructs, ∀ b ∈ tail, b ∉ construct.opening
  closing : ∀ construct ∈ constructs, ∀ b ∈ tail, b ∉ construct.closing
  closed : ∀ construct ∈ constructs, construct.closing ≠ []

/-- What is left after two reads, the second of the longer text, is alike but for
the tail. -/
def Aligned (rest tail : Bytes) (read longer : Nat) : Prop :=
  ∃ more ⊆ tail, (rest ++ tail).drop longer = rest.drop read ++ more

theorem Aligned.same (rest tail : Bytes) (read : Nat) : Aligned rest tail read read :=
  ⟨tail.drop (read - rest.length), List.drop_subset _ _, List.drop_append ..⟩

theorem Aligned.all (rest tail : Bytes) :
    Aligned rest tail rest.length (rest.length + tail.length) :=
  ⟨[], List.nil_subset _, by simp⟩

theorem prefix_append_iff {pattern tail : Bytes} (apart : ∀ b ∈ tail, b ∉ pattern) (text : Bytes) :
    pattern <+: text ++ tail ↔ pattern <+: text := by
  constructor
  · intro starts
    induction pattern generalizing text with
    | nil => exact List.nil_prefix
    | cons first pattern ih =>
      cases text with
      | nil =>
        obtain ⟨more, same⟩ := starts
        have inside : first ∈ tail := by
          rw [List.nil_append] at same
          exact same ▸ List.mem_cons_self
        exact absurd List.mem_cons_self (apart first inside)
      | cons c text =>
        rw [List.cons_append, List.cons_prefix_cons] at starts
        rw [List.cons_prefix_cons]
        exact ⟨starts.1, ih (fun b member inside => apart b member (List.mem_cons_of_mem _ inside))
          text starts.2⟩
  · intro starts
    exact starts.trans (List.prefix_append _ _)

theorem isPrefixOf_append {pattern tail : Bytes} (apart : ∀ b ∈ tail, b ∉ pattern) (text : Bytes) :
    pattern.isPrefixOf (text ++ tail) = pattern.isPrefixOf text := by
  rw [Bool.eq_iff_iff, List.isPrefixOf_iff_prefix, List.isPrefixOf_iff_prefix,
    prefix_append_iff apart]

theorem position_append_quiet {pattern tail : Bytes} (apart : ∀ b ∈ tail, b ∉ pattern)
    (solid : pattern ≠ []) (text : Bytes) : position pattern (text ++ tail) =
      position pattern text := by
  induction text with
  | nil =>
    obtain ⟨first, rest, rfl⟩ := List.exists_cons_of_ne_nil solid
    have absent : first ∉ tail := fun member => apart first member List.mem_cons_self
    have passed := @position_append first rest tail absent []
    rw [List.append_nil] at passed
    rw [List.nil_append, passed]
    rfl
  | cons c text ih =>
    have here := isPrefixOf_append apart (c :: text)
    rw [List.cons_append] at here ⊢
    rw [position, position, here, ih]

theorem skipPast_append {construct : Construct} {tail : Bytes}
    (opening : ∀ b ∈ tail, b ∉ construct.opening) (closing : ∀ b ∈ tail, b ∉ construct.closing)
    (closed : construct.closing ≠ []) (rest : Bytes) :
    skipPast rest construct = none ∧ skipPast (rest ++ tail) construct = none ∨
      ∃ read longer, skipPast rest construct = some read ∧
      skipPast (rest ++ tail) construct = some longer ∧
        Aligned rest tail read longer := by
  simp only [skipPast, isPrefixOf_append opening]
  split
  · rename_i starts
    have fits := (List.isPrefixOf_iff_prefix.mp starts).length_le
    simp only [List.drop_append_of_le_length fits, position_append_quiet closing closed]
    refine .inr ⟨_, _, rfl, rfl, ?_⟩
    cases position construct.closing (rest.drop construct.opening.length) with
    | some found => exact .same _ _ _
    | none =>
      have all := Aligned.all rest tail
      simp only [List.length_drop, List.length_append]
      rwa [Nat.add_sub_cancel' fits, ← Nat.add_assoc, Nat.add_sub_cancel' fits]
  · exact .inl ⟨rfl, rfl⟩

theorem findSome?_append {constructs : List Construct} {tail : Bytes}
    (quiet : Quiet constructs tail) (rest : Bytes) :
    constructs.findSome? (skipPast rest) = none ∧
      constructs.findSome? (skipPast (rest ++ tail)) = none ∨
      ∃ read longer, constructs.findSome? (skipPast rest) = some read ∧
        constructs.findSome? (skipPast (rest ++ tail)) = some longer ∧
            Aligned rest tail read longer := by
  induction constructs with
  | nil => exact .inl ⟨rfl, rfl⟩
  | cons construct constructs ih =>
    have later := ih ⟨quiet.markup, fun other member => quiet.opening other (.tail _ member),
      fun other member => quiet.closing other (.tail _ member), fun other member =>
        quiet.closed other (.tail _ member)⟩
    obtain ⟨here, there⟩ | ⟨read, longer, here, there, aligned⟩ :=
      skipPast_append (quiet.opening construct (.head _))
      (quiet.closing construct (.head _)) (quiet.closed construct (.head _)) rest
    · simpa [here, there] using later
    · exact .inr ⟨read, longer, by simp [here], by simp [there], aligned⟩

theorem pastClose_append_quiet {tail : Bytes} (absent : byte '>' ∉ tail) (rest : Bytes) :
    Aligned rest tail (pastClose rest) (pastClose (rest ++ tail)) := by
  have outside : tail.findIdx? (· == byte '>') = none := by
    rw [List.findIdx?_eq_none_iff]
    intro b member
    exact beq_false_of_ne fun same => absent (same ▸ member)
  rw [pastClose, pastClose, List.findIdx?_append, outside]
  cases rest.findIdx? (· == byte '>') with
  | some found => exact .same _ _ _
  | none =>
    rw [List.length_append]
    exact .all _ _

theorem tagLoop_quiet {tail : Bytes} (plain : ∀ b ∈ tail, b ∉ [byte '>', byte '"', byte '\''])
    (read : Nat) {quote : Option UInt8} (quoted : ∀ q ∈ quote, q ∉ tail) (prev : UInt8) :
    tagLoop read quote prev tail = (read + tail.length, false) := by
  induction tail generalizing read prev with
  | nil => rfl
  | cons c tail ih =>
    have later (prev : UInt8) := ih (fun b member => plain b (.tail _ member)) (read + 1)
      (fun q known member => quoted q known (.tail _ member)) prev
    have here := plain c (.head _)
    simp only [List.mem_cons, List.not_mem_nil, or_false, not_or] at here
    have counted : read + 1 + tail.length = read + (c :: tail).length := by
      rw [List.length_cons]
      omega
    cases quote with
    | some q =>
      have different : c ≠ q := fun same => quoted q rfl (same ▸ .head _)
      rw [tagLoop, if_neg different, later, counted]
    | none =>
      rw [tagLoop, if_neg (by simp [here]), if_neg here.1, later, counted]

theorem tagLoop_append {tail : Bytes} (plain : ∀ b ∈ tail, b ∉ [byte '>', byte '"', byte '\''])
    (rest : Bytes) (read : Nat) {quote : Option UInt8} (quoted : ∀ q ∈ quote, q ∉ tail)
    (prev : UInt8) :
    tagLoop read quote prev (rest ++ tail) = tagLoop read quote prev rest ∨
      tagLoop read quote prev rest = (read + rest.length, false) ∧
        tagLoop read quote prev (rest ++ tail) = (read + (rest ++ tail).length, false) := by
  induction rest generalizing read quote prev with
  | nil => exact .inr ⟨rfl, tagLoop_quiet plain read quoted prev⟩
  | cons c rest ih =>
    have counted (bytes : Bytes) : read + 1 + bytes.length = read + (c :: bytes).length := by
      rw [List.length_cons]
      omega
    have unquoted (b : UInt8) (mark : b = byte '"' ∨ b = byte '\'') : ∀ q ∈ some b, q ∉ tail := by
      intro q known member
      cases known
      have := plain b member
      rcases mark with rfl | rfl <;> simp at this
    cases quote with
    | some q =>
      simp only [List.cons_append, tagLoop]
      split
      · simpa only [counted] using @ih (read + 1) none (by simp) c
      · simpa only [counted] using ih (read + 1) quoted c
    | none =>
      simp only [List.cons_append, tagLoop]
      split
      · rename_i mark
        simpa only [counted] using ih (read + 1) (unquoted c mark) c
      · split
        · exact .inl rfl
        · simpa only [counted] using @ih (read + 1) none (by simp) c

theorem scanStartTag_append {tail : Bytes} (plain : ∀ b ∈ tail, b ∉ [byte '>', byte '"', byte '\''])
    (rest : Bytes) : (scanStartTag (rest ++ tail)).2 = (scanStartTag rest).2 ∧
      Aligned rest tail (scanStartTag rest).1 (scanStartTag (rest ++ tail)).1 := by
  obtain same | ⟨here, there⟩ := @tagLoop_append tail plain rest 0 none (by simp) 0
  · rw [scanStartTag, scanStartTag, same]
    exact ⟨rfl, .same _ _ _⟩
  · rw [scanStartTag, scanStartTag, here, there, Nat.zero_add, Nat.zero_add, List.length_append]
    exact ⟨rfl, .all _ _⟩

/-- A quiet tail changes nothing about how deep a text nests. -/
theorem exceeds_append {constructs : List Construct} {limit : Nat} (bytes : Bytes) {tail : Bytes}
    (quiet : Quiet constructs tail) (depth : Nat) :
    exceeds constructs limit (bytes ++ tail) depth = exceeds constructs limit bytes depth := by
  induction size : bytes.length using Nat.strong_induction_on generalizing bytes tail depth with
  | h size ih =>
    subst size
    have plain {b : UInt8} (member : b ∈ tail) := quiet.markup b member
    cases bytes with
    | nil =>
      have passed := @exceeds_plain constructs limit tail
        (fun member => plain member (by simp)) [] depth
      rw [List.append_nil] at passed
      exact passed
    | cons c rest =>
      have aligned {read longer : Nat} (aligned : Aligned rest tail read longer) (depth : Nat) :
          exceeds constructs limit ((rest ++ tail).drop longer) depth =
            exceeds constructs limit (rest.drop read) depth := by
        obtain ⟨more, inside, left⟩ := aligned
        rw [left]
        refine ih (rest.drop read).length ?_ _
          ⟨fun b member => quiet.markup b (inside member), ?_, ?_, quiet.closed⟩ _ rfl
        · simp only [List.length_drop, List.length_cons]
          omega
        · exact fun construct known b member => quiet.opening construct known b (inside member)
        · exact fun construct known b member => quiet.closing construct known b (inside member)
      have whole := aligned (Aligned.same rest tail 0)
      simp only [List.drop_zero] at whole
      have closed := pastClose_append_quiet (fun member => plain member (by simp)) rest
      have tagged := @scanStartTag_append tail (fun b member inside => plain member
        (by simp only [List.mem_cons, List.not_mem_nil, or_false] at inside ⊢; tauto)) rest
      have heads (mark : UInt8) (absent : mark ∉ tail) :
          (rest ++ tail).head? = some mark ↔ rest.head? = some mark := by
        cases rest with
        | nil => exact ⟨fun found => absurd (List.mem_of_mem_head? found) absent, nofun⟩
        | cons b rest => rfl
      rw [List.cons_append, exceeds_cons, exceeds_cons]
      simp only [whole, heads (byte '!') (fun member => plain member (by simp)),
        heads (byte '/') (fun member => plain member (by simp)), aligned closed,
          aligned tagged.2, tagged.1]
      obtain ⟨here, there⟩ | ⟨read, longer, here, there, same⟩ := findSome?_append quiet rest
      · simp only [here, there]
      · simp only [here, there, aligned same]

end OaGateway.Lib.Xml
