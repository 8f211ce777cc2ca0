import Bozo.QueryConf.Acceptance
import Bozo.QueryConf.Lossless
import Bozo.Numbering.Text

/-!
# The placeholders in a stored text

The parameters of a query are named in its configuration and numbered in the
text that the repository stores.  Putting the members of the parameters in the
place of the numbers gives the text of the configuration with each member in the
place of its name, unless a number of the configuration's own is met.
-/

namespace Bozo.QueryConf

open Bozo.Numbering

universe u v

variable {α : Type u} {β : Type v}

/-- An element with something for the name of a parameter. -/
def QueryTextElement.items (param : List Char → β) : QueryTextElement → List (Item β)
  | .textPart value => value.map .char
  | .parameterName name => [.param (param name)]

namespace Query

/-- The number of the placeholder for a name; there is no parameter 0. -/
def number (q : Query) (name : List Char) : Nat :=
  (q.index? name).elim 0 (· + 1)

/-- The member that a name stands for. -/
def member (q : Query) (params : List α) (name : List Char) : Option α :=
  (q.index? name).bind fun index => params[index]?

/-- How many parameters a query has. -/
def arity (q : Query) : Nat :=
  match q.parameters with
  | .adapted members => members.length
  | .tuple size _ => size

theorem index?_lt {q : Query} {name : List Char} {index : Nat}
    (known : q.index? name = some index) :
    index < q.arity := by
  unfold index? at known
  unfold arity
  cases parameters : q.parameters with
  | adapted members =>
      rw [parameters] at known
      exact (List.idxOf?_eq_some_iff.mp known).1
  | tuple size size_lt =>
      rw [parameters] at known
      simp only at known
      split at known
      · rename_i numeric
        cases known
        exact numeric.2.2
      · cases known

theorem parameter_number (q : Query) (params : List α) (name : List Char) :
    parameter params (q.number name) = q.member params name := by
  unfold number member
  cases q.index? name with
  | none => rfl
  | some index => rfl

/-- A parameter that is known is shown as its placeholder. -/
theorem shown_number {q : Query} {name : List Char} (known : (q.index? name).isSome = true) :
    (Item.param (q.number name)).shown = q.replacement name := by
  rcases Option.isSome_iff_exists.mp known with ⟨index, found⟩
  simp [number, replacement, found, Item.shown, placeholder]

end Query

/-- A text with the numbers of its parameters is what the repository makes of
it. -/
theorem shown_items {q : Query} {tokens : List QueryTextElement} (known : q.Knows tokens) :
    shown (tokens.flatMap (·.items q.number)) = tokens.flatMap (·.render q.replacement) := by
  induction tokens with
  | nil => rfl
  | cons token tokens ih =>
      rcases Query.knows_cons.mp known with ⟨here, others⟩
      rw [List.flatMap_cons, List.flatMap_cons, shown_append, ih others]
      congr 1
      cases token with
      | textPart value => exact shown_map_char value
      | parameterName name =>
          rw [QueryTextElement.items, shown_cons, Query.shown_number (here name rfl)]
          exact List.append_nil _

theorem map_items (f : α → β) (param : List Char → α) (tokens : List QueryTextElement) :
    (tokens.flatMap (·.items param)).map (Item.map f) =
      tokens.flatMap (·.items fun name => f (param name)) := by
  induction tokens with
  | nil => rfl
  | cons token tokens ih =>
      rw [List.flatMap_cons, List.flatMap_cons, List.map_append, ih]
      congr 1
      cases token with
      | textPart value =>
          rw [QueryTextElement.items, List.map_map]
          rfl
      | parameterName name => rfl

/-! ## Where a text is separate -/

/-- Characters that do not have a digit behind a dollar sign. -/
def NoDollarNumber (text : List Char) : Prop :=
  Separate (text.map (Item.char (α := Nat)))

instance (text : List Char) : Decidable (NoDollarNumber text) :=
  inferInstanceAs (Decidable (Separate _))

theorem isDigit_of_not_isNameChar {c : Char} (other : isNameChar c = false) :
    c.isDigit = false := by
  apply Bool.eq_false_iff.mpr
  intro digit
  simp only [Char.isDigit, Bool.and_eq_true, decide_eq_true_eq] at digit
  have name : isNameChar c = true := by
    simp only [isNameChar, Bool.or_eq_true, Bool.and_eq_true, decide_eq_true_eq, Char.le_def]
    exact .inl (.inl (.inr digit))
  cases other.symm.trans name

theorem head?_map_char (text : List Char) :
    (text.map (Item.char (α := β))).head?.any Item.isDigit = text.head?.any Char.isDigit := by
  cases text <;> rfl

theorem opens_of_isNameChar {c : Char} (name : isNameChar c = true) :
    (Item.char (α := β) c).opens = false := by
  apply decide_eq_false
  rintro rfl
  cases name

variable {line : List Char} {tokens : List QueryTextElement}

/-- The first thing of a line is a digit or not, with its parameters or
without. -/
theorem Tokens.head?_items (param : List Char → β) (made : Tokens line tokens) :
    (tokens.flatMap (·.items param)).head?.any Item.isDigit = line.head?.any Char.isDigit := by
  cases made with
  | nil => rfl
  | cast => rfl
  | assignment => rfl
  | plain => rfl
  | parameter => rfl

/-- A line is separate with its parameters exactly if it is without. -/
theorem Tokens.separate_iff (param : List Char → β) (made : Tokens line tokens) :
    Separate (tokens.flatMap (·.items param)) ↔ NoDollarNumber line := by
  induction made with
  | nil => exact iff_of_true .nil .nil
  | @cast rest tokens made ih =>
      rw [NoDollarNumber, List.map_append, List.flatMap_cons]
      rw [separate_append_iff_right, separate_append_iff_right, ih, NoDollarNumber]
      · simp [Item.opens]
      · simp [QueryTextElement.items, Item.opens]
  | @assignment rest tokens made ih =>
      rw [NoDollarNumber, List.map_append, List.flatMap_cons]
      rw [separate_append_iff_right, separate_append_iff_right, ih, NoDollarNumber]
      · simp [Item.opens]
      · simp [QueryTextElement.items, Item.opens]
  | @plain c rest tokens isPlain made ih =>
      rw [NoDollarNumber, List.map_cons, separate_cons_iff, head?_map_char]
      show Separate (.char c :: tokens.flatMap _) ↔ _
      rw [separate_cons_iff, made.head?_items, ih, NoDollarNumber]
      rfl
  | @parameter name rest tokens nonempty inside outside made ih =>
      have ends : rest.head?.any Char.isDigit = false := by
        cases rest with
        | nil => rfl
        | cons c rest => exact isDigit_of_not_isNameChar (outside c rfl)
      show Separate (.param (param name) :: tokens.flatMap _) ↔ _
      rw [separate_cons_iff, made.head?_items, and_iff_right fun _ => ends, ih]
      rw [NoDollarNumber, NoDollarNumber, List.map_append, separate_append_iff_right]
      intro item member
      rcases List.mem_map.mp member with ⟨c, known, rfl⟩
      rcases List.mem_cons.mp known with rfl | known
      · rfl
      · exact opens_of_isNameChar (inside c known)

theorem Tokens.getLast?_append {param : List Char → β} {front rest : List Char}
    {items : List (Item β)} {c : Char} (made : Tokens rest tokens)
    (behind : rest.getLast? = some c →
      (tokens.flatMap (·.items param)).getLast? = some (.char c))
    (here : front.getLast? = some c → items.getLast? = some (.char c))
    (last : (front ++ rest).getLast? = some c) :
    (items ++ tokens.flatMap (·.items param)).getLast? = some (.char c) := by
  rw [List.getLast?_append] at last ⊢
  cases end? : rest.getLast? with
  | none =>
      cases List.getLast?_eq_none_iff.mp end?
      cases made.unique .nil
      exact here last
  | some d =>
      rw [end?, Option.some_or] at last
      rw [behind (end?.trans last)]
      rfl

/-- A line that does not end with a name ends with its last character. -/
theorem Tokens.getLast?_items (param : List Char → β) (made : Tokens line tokens) {c : Char}
    (last : line.getLast? = some c) (other : isNameChar c = false) :
    (tokens.flatMap (·.items param)).getLast? = some (.char c) := by
  induction made with
  | nil => cases last
  | @cast rest tokens made ih =>
      apply made.getLast?_append ih _ last
      rintro ⟨⟩
      rfl
  | @assignment rest tokens made ih =>
      apply made.getLast?_append ih _ last
      rintro ⟨⟩
      rfl
  | @plain d rest tokens isPlain made ih =>
      have joined : ([d] ++ rest).getLast? = some c := last
      apply made.getLast?_append ih _ joined
      rintro ⟨⟩
      rfl
  | @parameter name rest tokens nonempty inside outside made ih =>
      apply made.getLast?_append ih _ last
      intro end?
      rw [List.getLast?_append, List.getLast?_eq_some_getLast nonempty, Option.some_or] at end?
      cases end?
      cases other.symm.trans (inside _ (List.getLast_mem nonempty))

/-- A line that has an end does not end with a name or a dollar sign. -/
theorem EndsOnce.exists_last {line : List Char} (ends : EndsOnce line) :
    ∃ c, line.getLast? = some c ∧ isNameChar c = false ∧ c ≠ '$' := by
  rcases ends with ⟨body, ending, rfl, member, -⟩
  simp only [lineEnds, List.mem_cons, List.not_mem_nil, or_false] at member
  rcases member with rfl | rfl | rfl
  · exact ⟨'\n', by simp, by decide, by decide⟩
  · exact ⟨'\r', by simp, by decide, by decide⟩
  · exact ⟨'\n', by simp, by decide, by decide⟩

/-- What is in front of the last one of some stays so among more. -/
theorem mem_dropLast_append {ι : Type u} {x : ι} {middle : List ι} (front back : List ι)
    (member : x ∈ middle.dropLast) : x ∈ (front ++ middle ++ back).dropLast := by
  rcases List.eq_nil_or_concat middle with rfl | ⟨init, last, rfl⟩
  · cases member
  · rw [List.concat_eq_append] at member ⊢
    rw [List.dropLast_concat] at member
    have split : front ++ (init ++ [last]) ++ back = (front ++ init) ++ (last :: back) := by simp
    rw [split, List.dropLast_append_of_ne_nil (List.cons_ne_nil _ _)]
    exact List.mem_append_left _ (List.mem_append_right _ member)

/-- A text is separate exactly if its lines are: an end of line stands between
them. -/
theorem BodyText.separate_iff (param : List Char → β) {body : List (List Char)}
    {tokens : List QueryTextElement} (made : BodyText Tokens body tokens)
    (ends : ∀ line ∈ body.dropLast, EndsOnce line) :
    Separate (tokens.flatMap (·.items param)) ↔
      ∀ line ∈ body, isComment line = false → NoDollarNumber line := by
  induction made with
  | nil => exact iff_of_true .nil fun line member => absurd member List.not_mem_nil
  | @comment line lines elements isComment behind ih =>
      have others : ∀ line ∈ lines.dropLast, EndsOnce line := by
        intro other member
        apply ends
        simpa using mem_dropLast_append [line] [] member
      rw [ih others, List.forall_mem_cons, and_iff_right]
      intro isText
      cases isComment.symm.trans isText
  | @text line lines first elements isText made behind ih =>
      have others : ∀ line ∈ lines.dropLast, EndsOnce line := by
        intro other member
        apply ends
        simpa using mem_dropLast_append [line] [] member
      rw [List.forall_mem_cons, imp_iff_right isText, ← made.separate_iff param, ← ih others,
        List.flatMap_append]
      unfold Separate
      rw [List.isChain_append, ← and_assoc, and_iff_left]
      intro item last next isFirst opens
      cases behind with
      | nil => cases isFirst
      | comment | text =>
          rcases (ends line (List.mem_cons_self ..)).exists_last with ⟨c, ending, other, noDollar⟩
          rw [made.getLast?_items param ending other] at last
          cases last
          exact absurd (of_decide_eq_true opens) noDollar

theorem Layout.Of.endsOnce {text : List Char} {layout : Layout} {block : Block}
    (isOf : layout.Of text) (member : block ∈ layout.blocks) :
    ∀ line ∈ block.body.dropLast, EndsOnce line := by
  rcases isOf with ⟨lines, split, isOf⟩
  intro line inBody
  apply split.endsOnce.1
  rcases List.append_of_mem member with ⟨before, after, same⟩
  have parts : lines = (layout.before ++ before.flatMap Block.lines ++ [block.header]) ++
      block.body ++ after.flatMap Block.lines := by
    rw [← isOf.lines_eq, Layout.lines, same]
    simp [Block.lines]
  rw [parts]
  exact mem_dropLast_append _ _ inBody

/-! ## The stored text -/

theorem isBlank_isSpace : IsBlank isSpace := by
  refine ⟨rfl, ?_⟩
  intro c digit
  apply Bool.eq_false_iff.mpr
  intro space
  simp only [isSpace, Bool.or_eq_true, beq_iff_eq] at space
  rcases space with ((((rfl | rfl) | rfl) | rfl) | rfl) | rfl <;> cases digit

/-- The text of a query in the configuration, with given parameters in the place
of their names. -/
def Query.written (q : Query) (params : List α) (tokens : List QueryTextElement) :
    List (Item (Option α)) :=
  trimmed isSpace (tokens.flatMap (·.items (q.member params)))

end Bozo.QueryConf
