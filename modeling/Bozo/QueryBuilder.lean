import Mathlib.Data.List.GetD
import Mathlib.Tactic.Common

/-!
# The query builder

A query is put together from pieces of text and parameters with `+`.  Which
overload of the operator is taken depends on the types of the operands and on
whether they are temporaries: the overloads for elements and builders bind to
temporaries only, and whatever else stands on the right is taken as the value of
a parameter.  The overload for an element in front of a builder hands its
operands to `hana::prepend` in the wrong order and cannot be instantiated.
-/

namespace Bozo.QueryBuilder

universe u

variable {α : Type u}

/-! ## Numbers -/

/-- `detail::digit_to_string`. -/
def digitToString (value : Nat) : List Char :=
  [Char.ofNat (48 + value)]

/-- `detail::to_string`, with `to_string_head` for what is in front of the last
digit. -/
def toString (value : Nat) : List Char :=
  let divident := value % 10
  let head := (value - divident) / 10
  (if head = 0 then [] else toString head) ++ digitToString divident
termination_by value

/-- The digit recursion gives the decimal form. -/
theorem toString_eq_toDigits (value : Nat) : toString value = Nat.toDigits 10 value := by
  induction value using Nat.strongRecOn with
  | _ value ih =>
      have lastDigit : digitToString (value % 10) = [Nat.digitChar (value % 10)] := by
        have small : value % 10 < 10 := Nat.mod_lt _ (by decide)
        generalize value % 10 = digit at small
        rcases digit with _ | _ | _ | _ | _ | _ | _ | _ | _ | _ | digit <;> first | rfl | omega
      have head : (value - value % 10) / 10 = value / 10 := by omega
      rw [toString, head, lastDigit]
      by_cases more : value / 10 = 0
      · rw [if_pos more, Nat.toDigits_of_lt_base (by omega), Nat.mod_eq_of_lt (by omega)]
        rfl
      · rw [if_neg more, ih (value / 10) (by omega),
          Nat.toDigits_of_base_le (n := value) (by decide) (by omega)]

/-! ## Elements and builders -/

/-- The types of a piece of text. -/
inductive TextType
  | hanaString
  | stdString
  deriving DecidableEq, Repr

mutual

/-- `query_element`, by its tag. -/
inductive Element (α : Type u)
  | text (type : TextType) (value : List Char)
  | param (value : Value α)

/-- The value of an expression: an element, a builder with its elements, or
anything else. -/
inductive Value (α : Type u)
  | plain (value : α)
  | element (element : Element α)
  | builder (elements : List (Element α))

end

/-- The fold of `query_builder::text`: the number of the next parameter and the
text so far, which is `nothing_t` at first.  A placeholder cannot be appended to
`nothing_t`, nor a text to one of the other type. -/
def foldText : List (Element α) → Nat → Option (TextType × List Char) →
    Option (TextType × List Char)
  | [], _, text => text
  | .text type value :: elements, number, none => foldText elements number (some (type, value))
  | .text type value :: elements, number, some (before, text) =>
      if type = before then foldText elements number (some (before, text ++ value)) else none
  | .param _ :: elements, number, some (type, text) =>
      foldText elements (number + 1) (some (type, text ++ ('$' :: toString number)))
  | .param _ :: _, _, none => none

/-- `query_builder::text`, if it compiles. -/
def text (elements : List (Element α)) : Option (List Char) :=
  (foldText elements 1 none).map Prod.snd

/-- `query_builder::params`. -/
def params (elements : List (Element α)) : List (Value α) :=
  elements.foldl (fun values element =>
    match element with
    | .text _ _ => values
    | .param value => values ++ [value]) []

/-! ## The operator -/

/-- An operand: its value, and whether it is something else than a temporary, so
that no rvalue reference binds to it. -/
structure Operand (α : Type u) where
  value : Value α
  named : Bool

/-- `operator +`; nothing where no overload is viable, or the one that is taken
cannot be instantiated. -/
def plus : Operand α → Operand α → Option (Value α)
  | ⟨.builder lhs, false⟩, ⟨.builder rhs, false⟩ => some (.builder (lhs ++ rhs))
  | ⟨.builder lhs, false⟩, ⟨.element rhs, false⟩ => some (.builder (lhs ++ [rhs]))
  -- `hana::prepend(element, elements)`, where the sequence is to come first
  | ⟨.element _, false⟩, ⟨.builder _, false⟩ => none
  | ⟨.builder lhs, false⟩, rhs => some (.builder (lhs ++ [.param rhs.value]))
  | ⟨.element lhs, false⟩, ⟨.element rhs, false⟩ => some (.builder [lhs, rhs])
  | ⟨.element lhs, false⟩, rhs => some (.builder [lhs, .param rhs.value])
  | _, _ => none

/-! ## Expressions -/

/-- The kinds of values. -/
inductive Category
  | plain
  | element
  | builder
  deriving DecidableEq, Repr

def Value.category : Value α → Category
  | .plain _ => .plain
  | .element _ => .element
  | .builder _ => .builder

/-- A piece of a query: text, or a parameter by its value. -/
inductive Piece (α : Type u)
  | text (type : TextType) (value : List Char)
  | param (value : α)

/-- `make_query_text` and `make_query_param`. -/
def Piece.element : Piece α → Element α
  | .text type value => .text type value
  | .param value => .param (.plain value)

def Piece.isParam : Piece α → Bool
  | .text _ _ => false
  | .param _ => true

def Piece.param? : Piece α → Option α
  | .text _ _ => none
  | .param a => some a

/-- A piece of text has a type. -/
def Piece.HasType (type : TextType) : Piece α → Prop
  | .text own _ => own = type
  | .param _ => True

/-- A piece in the text of a query, if it would be the parameter with the number. -/
def Piece.shown (number : Nat) : Piece α → List Char
  | .text _ value => value
  | .param _ => '$' :: Nat.toDigits 10 number

/-- An expression over the operator.  A value that is no element and no builder
stands for itself, also where another `+` has made it; `named` is a variable that
holds the value of an expression. -/
inductive Expr (α : Type u)
  | value (a : α)
  | element (piece : Piece α)
  | builder (pieces : List (Piece α))
  | named (expr : Expr α)
  | add (lhs rhs : Expr α)

namespace Expr

/-- `operator "" _SQL`. -/
def sql (value : List Char) : Expr α :=
  .builder [.text .hanaString value]

/-- The value of an expression, if it compiles. -/
def eval : Expr α → Option (Operand α)
  | .value a => some ⟨.plain a, false⟩
  | .element piece => some ⟨.element piece.element, false⟩
  | .builder pieces => some ⟨.builder (pieces.map Piece.element), false⟩
  | .named expr => expr.eval.map fun operand => ⟨operand.value, true⟩
  | .add lhs rhs => do
      let left ← lhs.eval
      let right ← rhs.eval
      let value ← plus left right
      return ⟨value, false⟩

/-- The pieces of an expression from left to right. -/
def flatten : Expr α → List (Piece α)
  | .value a => [.param a]
  | .element piece => [piece]
  | .builder pieces => pieces
  | .named expr => expr.flatten
  | .add lhs rhs => lhs.flatten ++ rhs.flatten

/-- An expression begins with a piece of text. -/
def StartsWithText (e : Expr α) : Prop :=
  ∃ type value, e.flatten.head? = some (.text type value)

/-- All texts of an expression are of one type. -/
def OneTextType (e : Expr α) : Prop :=
  ∃ type, ∀ piece ∈ e.flatten, piece.HasType type

/-- What an expression is the value of. -/
def category : Expr α → Category
  | .value _ => .plain
  | .element _ => .element
  | .builder _ | .add _ _ => .builder
  | .named expr => expr.category

/-- An expression that is not a temporary. -/
def IsNamed : Expr α → Prop
  | .named _ => True
  | _ => False

/-- A variable that holds an element or a builder. -/
def NamesQuery (e : Expr α) : Prop :=
  e.IsNamed ∧ e.category ≠ .plain

/-- Every left operand is a temporary element or builder, and no element stands in
front of a temporary builder. -/
def Compiles : Expr α → Prop
  | .add lhs rhs =>
      lhs.Compiles ∧ rhs.Compiles ∧ ¬lhs.IsNamed ∧ lhs.category ≠ .plain ∧
        (lhs.category = .element → rhs.category = .builder → rhs.IsNamed)
  | .named expr => expr.Compiles
  | _ => True

/-- No right operand is a variable that holds an element or a builder. -/
def Moved : Expr α → Prop
  | .add lhs rhs => lhs.Moved ∧ rhs.Moved ∧ ¬rhs.NamesQuery
  | .named expr => expr.Moved
  | _ => True

end Expr

/-! ## Elements of a value -/

/-- What a value adds to a builder. -/
def Value.elements : Value α → List (Element α)
  | .plain a => [.param (.plain a)]
  | .element e => [e]
  | .builder es => es

/-- What a right operand adds to a builder: the elements of a temporary, or a
parameter. -/
def Operand.appended : Operand α → List (Element α)
  | ⟨.element e, false⟩ => [e]
  | ⟨.builder es, false⟩ => es
  | ⟨value, _⟩ => [.param value]

/-- What the overloads have in common. -/
theorem plus_eq_some {lhs rhs : Operand α} {value : Value α} (taken : plus lhs rhs = some value) :
    value = .builder (lhs.value.elements ++ rhs.appended) := by
  rcases lhs with ⟨left, leftNamed⟩
  rcases rhs with ⟨right, rightNamed⟩
  cases leftNamed with
  | true => cases left <;> cases taken
  | false =>
      cases left with
      | plain a => cases taken
      | element element =>
          cases right <;> cases rightNamed <;> cases taken <;> rfl
      | builder elements =>
          cases right <;> cases rightNamed <;> cases taken <;> rfl

/-- Where an overload is viable and can be instantiated. -/
theorem exists_plus_iff (lhs rhs : Operand α) :
    (∃ value, plus lhs rhs = some value) ↔
      ¬lhs.named = true ∧ lhs.value.category ≠ .plain ∧
        (lhs.value.category = .element → rhs.value.category = .builder → rhs.named = true) := by
  rcases lhs with ⟨left, leftNamed⟩
  rcases rhs with ⟨right, rightNamed⟩
  cases left <;> cases leftNamed <;> cases right <;> cases rightNamed <;>
    simp [plus, Value.category]

namespace Expr

theorem eval_add_eq_some {lhs rhs : Expr α} {operand : Operand α}
    (evaluated : (add lhs rhs).eval = some operand) :
    ∃ left right, lhs.eval = some left ∧ rhs.eval = some right ∧
      operand = ⟨.builder (left.value.elements ++ right.appended), false⟩ := by
  rcases Option.bind_eq_some_iff.mp evaluated with ⟨left, leftEval, evaluated⟩
  rcases Option.bind_eq_some_iff.mp evaluated with ⟨right, rightEval, evaluated⟩
  rcases Option.bind_eq_some_iff.mp evaluated with ⟨value, taken, same⟩
  cases same
  exact ⟨left, right, leftEval, rightEval, by rw [plus_eq_some taken]⟩

theorem eval_named_eq_some {e : Expr α} {operand : Operand α}
    (evaluated : (named e).eval = some operand) :
    ∃ value isNamed, e.eval = some ⟨value, isNamed⟩ ∧ operand = ⟨value, true⟩ := by
  rcases Option.map_eq_some_iff.mp evaluated with ⟨⟨value, isNamed⟩, inner, same⟩
  exact ⟨value, isNamed, inner, same.symm⟩

theorem category_eq {e : Expr α} {operand : Operand α} (evaluated : e.eval = some operand) :
    operand.value.category = e.category := by
  induction e generalizing operand with
  | value a =>
      cases evaluated
      rfl
  | element piece =>
      cases evaluated
      rfl
  | builder pieces =>
      cases evaluated
      rfl
  | named e ih =>
      rcases eval_named_eq_some evaluated with ⟨value, isNamed, inner, rfl⟩
      have same := ih inner
      exact same
  | add lhs rhs =>
      rcases eval_add_eq_some evaluated with ⟨left, right, -, -, rfl⟩
      rfl

theorem named_iff {e : Expr α} {operand : Operand α} (evaluated : e.eval = some operand) :
    operand.named = true ↔ e.IsNamed := by
  cases e with
  | value a =>
      cases evaluated
      exact iff_of_false Bool.false_ne_true id
  | element piece =>
      cases evaluated
      exact iff_of_false Bool.false_ne_true id
  | builder pieces =>
      cases evaluated
      exact iff_of_false Bool.false_ne_true id
  | named e =>
      rcases eval_named_eq_some evaluated with ⟨value, isNamed, inner, rfl⟩
      exact iff_of_true rfl trivial
  | add lhs rhs =>
      rcases eval_add_eq_some evaluated with ⟨left, right, -, -, rfl⟩
      exact iff_of_false Bool.false_ne_true id

/-- An expression compiles exactly if each of its operators does. -/
theorem exists_eval_iff (e : Expr α) : (∃ operand, e.eval = some operand) ↔ e.Compiles := by
  induction e with
  | value a => exact iff_of_true ⟨_, rfl⟩ trivial
  | element piece => exact iff_of_true ⟨_, rfl⟩ trivial
  | builder pieces => exact iff_of_true ⟨_, rfl⟩ trivial
  | named e ih =>
      refine Iff.trans ?_ ih
      constructor
      · rintro ⟨operand, evaluated⟩
        rcases eval_named_eq_some evaluated with ⟨value, isNamed, inner, -⟩
        exact ⟨_, inner⟩
      · rintro ⟨operand, inner⟩
        exact ⟨_, Option.map_eq_some_iff.mpr ⟨operand, inner, rfl⟩⟩
  | add lhs rhs ihLeft ihRight =>
      rw [Compiles, ← ihLeft, ← ihRight]
      constructor
      · rintro ⟨operand, evaluated⟩
        rcases Option.bind_eq_some_iff.mp evaluated with ⟨left, leftEval, evaluated⟩
        rcases Option.bind_eq_some_iff.mp evaluated with ⟨right, rightEval, evaluated⟩
        rcases Option.bind_eq_some_iff.mp evaluated with ⟨value, taken, -⟩
        have viable := (exists_plus_iff left right).mp ⟨value, taken⟩
        rw [← named_iff leftEval, ← named_iff rightEval, ← category_eq leftEval,
          ← category_eq rightEval]
        exact ⟨⟨left, leftEval⟩, ⟨right, rightEval⟩, viable⟩
      · rintro ⟨⟨left, leftEval⟩, ⟨right, rightEval⟩, viable⟩
        rw [← named_iff leftEval, ← named_iff rightEval, ← category_eq leftEval,
          ← category_eq rightEval] at viable
        rcases (exists_plus_iff left right).mpr viable with ⟨value, taken⟩
        refine ⟨⟨value, false⟩, ?_⟩
        simp only [eval, leftEval, rightEval, taken, Option.bind_eq_bind, Option.bind_some]
        rfl

/-- A right operand that does not name an element or a builder is flattened. -/
theorem appended_of_not_namesQuery {e : Expr α} {operand : Operand α}
    (evaluated : e.eval = some operand) (moved : ¬e.NamesQuery) :
    operand.appended = operand.value.elements := by
  rw [NamesQuery, ← named_iff evaluated, ← category_eq evaluated] at moved
  rcases operand with ⟨value, isNamed⟩
  cases isNamed with
  | false => cases value <;> rfl
  | true =>
      cases value with
      | plain a => rfl
      | element element => exact absurd ⟨rfl, nofun⟩ moved
      | builder elements => exact absurd ⟨rfl, nofun⟩ moved

/-- One that does becomes the value of a parameter. -/
theorem appended_of_namesQuery {e : Expr α} {operand : Operand α}
    (evaluated : e.eval = some operand) (names : e.NamesQuery) :
    operand.appended = [.param operand.value] ∧ ∀ a, operand.value ≠ .plain a := by
  rw [NamesQuery, ← named_iff evaluated, ← category_eq evaluated] at names
  rcases operand with ⟨value, isNamed⟩
  rcases names with ⟨rfl, query⟩
  constructor
  · cases value <;> rfl
  · rintro a rfl
    exact query rfl

/-! ## Flattening -/

theorem elements_of_moved {e : Expr α} {operand : Operand α} (evaluated : e.eval = some operand)
    (moved : e.Moved) : operand.value.elements = e.flatten.map Piece.element := by
  induction e generalizing operand with
  | value a =>
      cases evaluated
      rfl
  | element piece =>
      cases evaluated
      rfl
  | builder pieces =>
      cases evaluated
      rfl
  | named e ih =>
      rcases eval_named_eq_some evaluated with ⟨value, isNamed, inner, rfl⟩
      have flattened := ih inner moved
      exact flattened
  | add lhs rhs ihLeft ihRight =>
      rcases eval_add_eq_some evaluated with ⟨left, right, leftEval, rightEval, rfl⟩
      rcases moved with ⟨leftMoved, rightMoved, unnamed⟩
      change left.value.elements ++ right.appended = (lhs.flatten ++ rhs.flatten).map _
      rw [appended_of_not_namesQuery rightEval unnamed, ihLeft leftEval leftMoved,
        ihRight rightEval rightMoved, List.map_append]

end Expr

/-- A parameter whose value is neither an element nor a builder, or text. -/
def Element.IsPlain : Element α → Prop
  | .text _ _ | .param (.plain _) => True
  | .param _ => False

theorem Piece.isPlain_element (piece : Piece α) : piece.element.IsPlain := by
  cases piece <;> trivial

namespace Expr

/-- A variable on the right is seen in the elements. -/
theorem moved_of_isPlain {e : Expr α} {operand : Operand α} (evaluated : e.eval = some operand)
    (plain : ∀ element ∈ operand.value.elements, element.IsPlain) : e.Moved := by
  induction e generalizing operand with
  | value a => trivial
  | element piece => trivial
  | builder pieces => trivial
  | named e ih =>
      rcases eval_named_eq_some evaluated with ⟨value, isNamed, inner, rfl⟩
      have moved := ih inner plain
      exact moved
  | add lhs rhs ihLeft ihRight =>
      rcases eval_add_eq_some evaluated with ⟨left, right, leftEval, rightEval, rfl⟩
      rcases List.forall_mem_append.mp plain with ⟨leftPlain, rightPlain⟩
      have unnamed : ¬rhs.NamesQuery := by
        intro names
        rcases appended_of_namesQuery rightEval names with ⟨wrapped, notPlain⟩
        rw [wrapped] at rightPlain
        have isPlain := rightPlain _ List.mem_cons_self
        cases value : right.value with
        | plain a => exact notPlain a value
        | element inner =>
            rw [value] at isPlain
            exact isPlain
        | builder inner =>
            rw [value] at isPlain
            exact isPlain
      rw [appended_of_not_namesQuery rightEval unnamed] at rightPlain
      exact ⟨ihLeft leftEval leftPlain, ihRight rightEval rightPlain, unnamed⟩

/-- The elements are the pieces in order exactly when no variable that holds an
element or a builder stands on the right. -/
theorem elements_eq_iff {e : Expr α} {operand : Operand α} (evaluated : e.eval = some operand) :
    operand.value.elements = e.flatten.map Piece.element ↔ e.Moved := by
  constructor
  · intro flattened
    apply moved_of_isPlain evaluated
    intro element member
    rw [flattened] at member
    rcases List.mem_map.mp member with ⟨piece, -, rfl⟩
    exact piece.isPlain_element
  · exact elements_of_moved evaluated

end Expr

/-! ## Text and parameters -/

/-- The number of the parameter at a position, if the parameters are counted from
`first` on. -/
def numberFrom (first : Nat) (pieces : List (Piece α)) (i : Nat) : Nat :=
  first + (pieces.take i).countP Piece.isParam

/-- The pieces one after the other, each parameter as its placeholder. -/
def renderFrom (first : Nat) (pieces : List (Piece α)) : List Char :=
  (pieces.mapIdx fun i piece => piece.shown (numberFrom first pieces i)).flatten

theorem renderFrom_cons (first : Nat) (piece : Piece α) (pieces : List (Piece α)) :
    renderFrom first (piece :: pieces) =
      piece.shown first ++ renderFrom (first + if piece.isParam then 1 else 0) pieces := by
  have shifted : ∀ i, numberFrom first (piece :: pieces) (i + 1) =
      numberFrom (first + if piece.isParam then 1 else 0) pieces i := by
    intro i
    simp only [numberFrom, List.take_succ_cons, List.countP_cons]
    omega
  rw [renderFrom, List.mapIdx_cons, List.flatten_cons]
  simp only [shifted]
  rfl

theorem foldText_eq {pieces : List (Piece α)} {type : TextType}
    (same : ∀ piece ∈ pieces, piece.HasType type) (number : Nat) (before : List Char) :
    foldText (pieces.map Piece.element) number (some (type, before)) =
      some (type, before ++ renderFrom number pieces) := by
  induction pieces generalizing number before with
  | nil =>
      rw [renderFrom, List.mapIdx_nil, List.flatten_nil, List.append_nil]
      rfl
  | cons piece pieces ih =>
      rcases List.forall_mem_cons.mp same with ⟨here, others⟩
      rw [renderFrom_cons]
      cases piece with
      | text own value =>
          have same : own = type := here
          rw [List.map_cons, Piece.element, foldText, if_pos same, ih others, List.append_assoc]
          rfl
      | param a =>
          rw [List.map_cons, Piece.element, foldText, ih others, List.append_assoc,
            toString_eq_toDigits]
          rfl

/-- A text of the other type cannot be appended. -/
theorem hasType_of_foldText {pieces : List (Piece α)} {type : TextType} {number : Nat}
    {before : List Char} {result : TextType × List Char}
    (folded : foldText (pieces.map Piece.element) number (some (type, before)) = some result) :
    ∀ piece ∈ pieces, piece.HasType type := by
  induction pieces generalizing number before with
  | nil => exact nofun
  | cons piece pieces ih =>
      cases piece with
      | text own value =>
          rw [List.map_cons, Piece.element, foldText] at folded
          by_cases same : own = type
          · rw [if_pos same] at folded
            exact List.forall_mem_cons.mpr ⟨same, ih folded⟩
          · rw [if_neg same] at folded
            cases folded
      | param a =>
          rw [List.map_cons, Piece.element, foldText] at folded
          exact List.forall_mem_cons.mpr ⟨trivial, ih folded⟩

/-- The text of pieces that begin with text is there exactly if all texts are of
one type. -/
theorem text_eq_iff {pieces : List (Piece α)} {type : TextType} {value : List Char}
    (starts : pieces.head? = some (.text type value)) :
    text (pieces.map Piece.element) = some (renderFrom 1 pieces) ↔
      ∃ type, ∀ piece ∈ pieces, piece.HasType type := by
  cases pieces with
  | nil => cases starts
  | cons piece pieces =>
      cases starts
      rw [text, List.map_cons, Piece.element, foldText]
      constructor
      · intro folded
        rcases Option.map_eq_some_iff.mp folded with ⟨result, folded, -⟩
        exact ⟨type, List.forall_mem_cons.mpr ⟨rfl, hasType_of_foldText folded⟩⟩
      · rintro ⟨other, same⟩
        rcases List.forall_mem_cons.mp same with ⟨rfl, others⟩
        rw [foldText_eq others, renderFrom_cons]
        rfl

theorem params_eq (pieces : List (Piece α)) :
    params (pieces.map Piece.element) = (pieces.filterMap Piece.param?).map .plain := by
  have folded : ∀ before : List (Value α),
      (pieces.map Piece.element).foldl (fun values element =>
        match element with
        | .text _ _ => values
        | .param value => values ++ [value]) before =
          before ++ (pieces.filterMap Piece.param?).map .plain := by
    induction pieces with
    | nil => simp
    | cons piece pieces ih =>
        intro before
        cases piece with
        | text type value => exact ih before
        | param a =>
            change (pieces.map Piece.element).foldl _ (before ++ [.plain a]) = _
            rw [ih, List.append_assoc]
            rfl
  exact folded []

/-- As many parameters stand in front of a parameter as its place says. -/
theorem filterMap_param?_getElem? {pieces : List (Piece α)} {i : Nat} {a : α}
    (isParam : pieces[i]? = some (.param a)) :
    (pieces.filterMap Piece.param?)[(pieces.take i).countP Piece.isParam]? = some a := by
  induction pieces generalizing i with
  | nil => cases isParam
  | cons piece pieces ih =>
      cases i with
      | zero =>
          cases isParam
          rfl
      | succ i =>
          rw [List.getElem?_cons_succ] at isParam
          have later := ih isParam
          cases piece with
          | text type value => exact later
          | param b =>
              rw [List.take_succ_cons, List.countP_cons_of_pos (by rfl)]
              exact later

/-! ## Builders -/

/-- A builder keeps the pieces of an expression in order, its text numbers the
parameters from one on, and its parameters have these numbers. -/
structure Flattens (e : Expr α) (elements : List (Element α)) : Prop where
  elements_eq : elements = e.flatten.map Piece.element
  text_eq : text elements = some (renderFrom 1 e.flatten)
  params_eq : params elements = (e.flatten.filterMap Piece.param?).map .plain
  placeholder : ∀ i a, e.flatten[i]? = some (.param a) →
    ∃ k, numberFrom 1 e.flatten i = k + 1 ∧ (params elements)[k]? = some (.plain a)

theorem Expr.flattens_iff {e : Expr α} {elements : List (Element α)} {isNamed : Bool}
    (built : e.eval = some ⟨.builder elements, isNamed⟩) (starts : e.StartsWithText) :
    Flattens e elements ↔ e.Moved ∧ e.OneTextType := by
  rcases starts with ⟨type, value, starts⟩
  constructor
  · intro flattens
    have text := flattens.text_eq
    rw [flattens.elements_eq] at text
    exact ⟨(elements_eq_iff built).mp flattens.elements_eq,
      (QueryBuilder.text_eq_iff starts).mp text⟩
  · rintro ⟨moved, oneType⟩
    have flattened : elements = e.flatten.map Piece.element := elements_of_moved built moved
    subst flattened
    constructor
    · rfl
    · exact (QueryBuilder.text_eq_iff starts).mpr oneType
    · exact QueryBuilder.params_eq e.flatten
    · intro i a isParam
      use (e.flatten.take i).countP Piece.isParam
      constructor
      · exact Nat.add_comm _ _
      · rw [QueryBuilder.params_eq, List.getElem?_map, filterMap_param?_getElem? isParam]
        rfl

/-- An expression gives a builder that flattens it. -/
def Expr.BuildsFlattened (e : Expr α) : Prop :=
  ∃ elements isNamed, e.eval = some ⟨.builder elements, isNamed⟩ ∧ Flattens e elements

theorem Expr.exists_builder {e : Expr α} (category : e.category = .builder)
    (compiles : e.Compiles) : ∃ elements isNamed, e.eval = some ⟨.builder elements, isNamed⟩ := by
  rcases (exists_eval_iff e).mpr compiles with ⟨⟨value, isNamed⟩, evaluated⟩
  have same := category_eq evaluated
  rw [category] at same
  cases value with
  | plain a => cases same
  | element element => cases same
  | builder elements => exact ⟨elements, isNamed, evaluated⟩

/-- The expression `"SELECT "_SQL + 42 + " + "_SQL + 13`. -/
def sumOfParams : Expr Nat :=
  .add (.add (.add (.sql "SELECT ".toList) (.value 42)) (.sql " + ".toList)) (.value 13)

theorem startsWithText_sumOfParams : sumOfParams.StartsWithText :=
  ⟨.hanaString, "SELECT ".toList, rfl⟩

theorem compiles_sumOfParams : sumOfParams.Compiles := by
  simp [sumOfParams, Expr.Compiles, Expr.sql, Expr.IsNamed, Expr.category]

theorem moved_sumOfParams : sumOfParams.Moved := by
  simp [sumOfParams, Expr.Moved, Expr.sql, Expr.NamesQuery, Expr.IsNamed]

theorem oneTextType_sumOfParams : sumOfParams.OneTextType := by
  use .hanaString
  simp [sumOfParams, Expr.flatten, Expr.sql, Piece.HasType]

/-- The expression `"SELECT 1"_SQL + tail` with a variable `tail` that holds
`" + 1"_SQL`. -/
def namedTail : Expr Nat :=
  .add (.sql "SELECT 1".toList) (.named (.sql " + 1".toList))

/-- An element in front of a builder does not compile. -/
example : (Expr.add (.element (.text .hanaString "SELECT ".toList))
    (.add (.sql "1 + ".toList) (.value 42))).eval = none :=
  rfl

end Bozo.QueryBuilder
