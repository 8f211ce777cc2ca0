import Mathlib.Data.List.Chain
import Mathlib.Data.List.DropRight
import Mathlib.Tactic.Common

/-!
# Numbers in a text

Parameters are written into a text as a dollar sign and a decimal number.  A
text can be cut again in front of its dollar signs and behind their numbers,
with as many digits as there are.  What follows a number, or a dollar sign
without one, decides whether that gives back what was written.
-/

namespace Bozo.Numbering

universe u v

variable {α : Type u} {β : Type v}

/-- What stands in a text: a character, or a parameter. -/
inductive Item (α : Type u)
  | char (c : Char)
  | param (value : α)
  deriving DecidableEq, Repr

namespace Item

/-- A number, or what could be the start of one. -/
def opens : Item α → Bool
  | .char c => c = '$'
  | .param _ => true

/-- What a number could go on with. -/
def isDigit : Item α → Bool
  | .char c => c.isDigit
  | .param _ => false

def isChar (p : Char → Bool) : Item α → Bool
  | .char c => p c
  | .param _ => false

def map (f : α → β) : Item α → Item β
  | .char c => .char c
  | .param value => .param (f value)

/-- The text of a character or of the parameter with a number. -/
def shown : Item Nat → List Char
  | .char c => [c]
  | .param number => '$' :: Nat.toDigits 10 number

end Item

/-- The text of items. -/
def shown (items : List (Item Nat)) : List Char :=
  items.flatMap Item.shown

/-- A text from left to right: a dollar sign in front of digits is a parameter,
with all the digits as its number. -/
def cut : List Char → List (Item Nat)
  | [] => []
  | c :: rest =>
      if c = '$' ∧ rest.head?.any Char.isDigit then
        .param (Nat.ofDigitChars 10 (rest.takeWhile Char.isDigit) 0) ::
          cut (rest.dropWhile Char.isDigit)
      else
        .char c :: cut rest
termination_by text => text.length
decreasing_by
  · exact Nat.lt_succ_of_le (List.dropWhile_sublist _).length_le
  · exact Nat.lt_succ_self _

/-- No digit follows a parameter or a dollar sign. -/
def Separate (items : List (Item α)) : Prop :=
  items.IsChain fun item next => item.opens = true → next.isDigit = false

instance (items : List (Item α)) : Decidable (Separate items) :=
  inferInstanceAs (Decidable (items.IsChain _))

/-- The parameter with a number, from one on. -/
def parameter (params : List α) : Nat → Option α
  | 0 => none
  | number + 1 => params[number]?

/-- A text with given parameters in the place of its numbers; a parameter that is
not given is nothing. -/
def filled (params : List α) (text : List Char) : List (Item (Option α)) :=
  (cut text).map (Item.map (parameter params))

/-! ## Cutting what was written -/

theorem shown_cons (item : Item Nat) (items : List (Item Nat)) :
    shown (item :: items) = item.shown ++ shown items :=
  List.flatMap_cons

theorem shown_append (items others : List (Item Nat)) :
    shown (items ++ others) = shown items ++ shown others :=
  List.flatMap_append

theorem separate_cons_iff {item : Item α} {items : List (Item α)} :
    Separate (item :: items) ↔
      (item.opens = true → items.head?.any Item.isDigit = false) ∧ Separate items := by
  unfold Separate
  rw [List.isChain_cons]
  apply and_congr_left'
  cases items.head? with
  | none => simp
  | some next => simp

theorem shown_map_char (text : List Char) : shown (text.map .char) = text := by
  induction text with
  | nil => rfl
  | cons c text ih =>
      rw [List.map_cons, shown_cons, ih]
      rfl

/-- A text begins with a digit if its first item is one. -/
theorem head?_shown (items : List (Item Nat)) :
    (shown items).head?.any Char.isDigit = items.head?.any Item.isDigit := by
  cases items with
  | nil => rfl
  | cons item items =>
      cases item with
      | char c => rfl
      | param number => rfl

/-- The digits of a number end where no digit follows. -/
theorem span_digits (number : Nat) {rest : List Char}
    (ends : rest.head?.any Char.isDigit = false) :
    (Nat.toDigits 10 number ++ rest).takeWhile Char.isDigit = Nat.toDigits 10 number ∧
      (Nat.toDigits 10 number ++ rest).dropWhile Char.isDigit = rest := by
  have digits : ∀ c ∈ Nat.toDigits 10 number, c.isDigit = true := fun c member =>
    Nat.isDigit_of_mem_toDigits (by decide) (by decide) member
  rw [List.takeWhile_append_of_pos digits, List.dropWhile_append_of_pos digits]
  cases rest with
  | nil => simp
  | cons c rest =>
      have other : c.isDigit = false := ends
      simp [other]

theorem cut_number (number : Nat) {rest : List Char}
    (ends : rest.head?.any Char.isDigit = false) :
    cut ('$' :: (Nat.toDigits 10 number ++ rest)) = .param number :: cut rest := by
  have starts : (Nat.toDigits 10 number ++ rest).head?.any Char.isDigit = true := by
    cases digits : Nat.toDigits 10 number with
    | nil => exact absurd digits Nat.toDigits_ne_nil
    | cons c others =>
        apply Nat.isDigit_of_mem_toDigits (b := 10) (n := number) (by decide) (by decide)
        rw [digits]
        exact List.mem_cons_self ..
  rcases span_digits number ends with ⟨taken, dropped⟩
  rw [cut, if_pos ⟨rfl, starts⟩, taken, dropped, Nat.ofDigitChars_ten_toDigits]

theorem cut_shown {items : List (Item Nat)} (separate : Separate items) :
    cut (shown items) = items := by
  induction items with
  | nil =>
      rw [shown, List.flatMap_nil, cut]
  | cons item items ih =>
      rcases separate_cons_iff.mp separate with ⟨ends, rest⟩
      rw [← head?_shown] at ends
      rw [shown_cons]
      cases item with
      | char c =>
          have plain : ¬ (c = '$' ∧ (shown items).head?.any Char.isDigit = true) := by
            rintro ⟨rfl, digit⟩
            rw [ends rfl] at digit
            cases digit
          show cut (c :: shown items) = _
          rw [cut, if_neg plain, ih rest]
      | param number =>
          show cut ('$' :: (Nat.toDigits 10 number ++ shown items)) = _
          rw [cut_number number (ends rfl), ih rest]

theorem head?_cut (text : List Char) :
    (cut text).head?.any Item.isDigit = text.head?.any Char.isDigit := by
  cases text with
  | nil => rw [cut]; rfl
  | cons c rest =>
      rw [cut]
      split
      · rename_i placeholder
        rw [placeholder.1]
        rfl
      · rfl

theorem head?_dropWhile_isDigit (text : List Char) :
    (text.dropWhile Char.isDigit).head?.any Char.isDigit = false := by
  induction text with
  | nil => rfl
  | cons c text ih =>
      rw [List.dropWhile_cons]
      split
      · exact ih
      · rename_i other
        exact Bool.eq_false_iff.mpr other

/-- In what a text is cut into, numbers and digits are separate. -/
theorem separate_cut (text : List Char) : Separate (cut text) := by
  induction text using cut.induct with
  | case1 =>
      rw [cut]
      exact .nil
  | case2 c rest placeholder ih =>
      rw [cut, if_pos placeholder, separate_cons_iff, head?_cut]
      exact ⟨fun _ => head?_dropWhile_isDigit rest, ih⟩
  | case3 c rest plain ih =>
      rw [cut, if_neg plain, separate_cons_iff, head?_cut]
      refine ⟨fun opens => ?_, ih⟩
      have dollar : c = '$' := of_decide_eq_true opens
      exact Bool.eq_false_iff.mpr fun digit => plain ⟨dollar, digit⟩

/-- Whether items are separate does not depend on the parameters. -/
theorem separate_map_iff {f : α → β} {items : List (Item α)} :
    Separate (items.map (Item.map f)) ↔ Separate items := by
  have opens : ∀ item : Item α, (item.map f).opens = item.opens := by
    intro item
    cases item <;> rfl
  have digit : ∀ item : Item α, (item.map f).isDigit = item.isDigit := by
    intro item
    cases item <;> rfl
  unfold Separate
  rw [List.isChain_map]
  simp only [opens, digit]

/-- Filling the numbers in a text gives the items that were written, with their
parameters, exactly if these are separate. -/
theorem filled_shown_iff {params : List α} {items : List (Item Nat)} :
    filled params (shown items) = items.map (Item.map (parameter params)) ↔ Separate items := by
  constructor
  · intro same
    rw [← separate_map_iff (f := parameter params), ← same]
    exact separate_map_iff.mpr (separate_cut _)
  · intro separate
    rw [filled, cut_shown separate]

/-! ## What does not open a number -/

theorem separate_append_iff_right {items others : List (Item α)}
    (closed : ∀ item ∈ items, item.opens = false) :
    Separate (items ++ others) ↔ Separate others := by
  induction items with
  | nil => rfl
  | cons item items ih =>
      rw [List.forall_mem_cons] at closed
      rw [List.cons_append, separate_cons_iff, ih closed.2, closed.1, and_iff_right]
      exact fun opens => absurd opens Bool.false_ne_true

theorem separate_append_iff_left {items others : List (Item α)}
    (plain : ∀ item ∈ others, item.opens = false ∧ item.isDigit = false) :
    Separate (items ++ others) ↔ Separate items := by
  have behind : Separate others := by
    rw [← List.append_nil others,
      separate_append_iff_right fun item member => (plain item member).1]
    exact .nil
  unfold Separate at behind ⊢
  rw [List.isChain_append, and_iff_left]
  refine ⟨behind, ?_⟩
  intro item _ next first _
  exact (plain next (List.mem_of_mem_head? first)).2

/-! ## Trimming -/

theorem dropWhile_shown {p : Char → Bool} (dollar : p '$' = false) (items : List (Item Nat)) :
    (shown items).dropWhile p = shown (items.dropWhile (Item.isChar p)) := by
  induction items with
  | nil => rfl
  | cons item items ih =>
      rw [shown_cons, List.dropWhile_cons]
      cases item with
      | char c =>
          show (c :: shown items).dropWhile p = _
          rw [List.dropWhile_cons]
          split <;> rename_i blank
          · rw [ih, if_pos (show Item.isChar p (.char c) = true from blank)]
          · rw [if_neg (show ¬ Item.isChar p (.char c) = true from blank)]
            rfl
      | param number =>
          show ('$' :: (Nat.toDigits 10 number ++ shown items)).dropWhile p = _
          rw [List.dropWhile_cons, dollar, if_neg Bool.false_ne_true,
            if_neg (show ¬ Item.isChar p (.param number) = true from Bool.false_ne_true)]
          rfl

theorem rdropWhile_shown {p : Char → Bool} (digits : ∀ c, c.isDigit = true → p c = false)
    (items : List (Item Nat)) :
    (shown items).rdropWhile p = shown (items.rdropWhile (Item.isChar p)) := by
  induction items using List.reverseRecOn with
  | nil => rfl
  | append_singleton items item ih =>
      rw [shown_append, List.rdropWhile_concat]
      cases item with
      | char c =>
          show (shown items ++ [c]).rdropWhile p = _
          rw [List.rdropWhile_concat]
          split <;> rename_i blank
          · rw [ih, if_pos (show Item.isChar p (.char c) = true from blank)]
          · rw [if_neg (show ¬ Item.isChar p (.char c) = true from blank), shown_append]
            rfl
      | param number =>
          have nonempty : Nat.toDigits 10 number ≠ [] := Nat.toDigits_ne_nil
          have last := Nat.isDigit_of_mem_toDigits (by decide) (by decide)
            (List.getLast_mem nonempty)
          have ends : shown [.param number] =
              ('$' :: (Nat.toDigits 10 number).dropLast) ++
                [(Nat.toDigits 10 number).getLast nonempty] := by
            rw [List.cons_append, List.dropLast_append_getLast]
            exact List.append_nil _
          rw [ends, ← List.append_assoc, List.rdropWhile_concat_neg _ _ _ (by simp [digits _ last]),
            List.append_assoc, ← ends,
            if_neg (show ¬ Item.isChar p (.param number) = true from Bool.false_ne_true),
            shown_append]

/-- The items between blank characters. -/
def trimmed (blank : Char → Bool) (items : List (Item α)) : List (Item α) :=
  (items.dropWhile (Item.isChar blank)).rdropWhile (Item.isChar blank)

/-- Blank characters are not part of numbers. -/
structure IsBlank (blank : Char → Bool) : Prop where
  dollar : blank '$' = false
  digit : ∀ c, c.isDigit = true → blank c = false

theorem IsBlank.plain {blank : Char → Bool} (isBlank : IsBlank blank) {item : Item α}
    (isChar : item.isChar blank = true) : item.opens = false ∧ item.isDigit = false := by
  cases item with
  | char c =>
      constructor
      · apply decide_eq_false
        rintro rfl
        cases isBlank.dollar.symm.trans isChar
      · apply Bool.eq_false_iff.mpr
        intro digit
        cases (isBlank.digit c digit).symm.trans isChar
  | param value => cases isChar

/-- Trimming does not change whether items are separate. -/
theorem separate_trimmed_iff {blank : Char → Bool} (isBlank : IsBlank blank)
    {items : List (Item α)} :
    Separate (trimmed blank items) ↔ Separate items := by
  have front : Separate (items.dropWhile (Item.isChar blank)) ↔ Separate items := by
    conv_rhs => rw [← List.takeWhile_append_dropWhile (p := Item.isChar blank) (l := items)]
    rw [separate_append_iff_right fun item member =>
      (isBlank.plain (List.mem_takeWhile_imp member)).1]
  rw [← front, trimmed]
  conv_rhs => rw [← List.rdropWhile_append_rtakeWhile (p := Item.isChar blank)
    (l := items.dropWhile (Item.isChar blank))]
  rw [separate_append_iff_left fun item member => isBlank.plain (List.mem_rtakeWhile_imp member)]

theorem trimmed_shown {blank : Char → Bool} (isBlank : IsBlank blank) (items : List (Item Nat)) :
    ((shown items).dropWhile blank).rdropWhile blank = shown (trimmed blank items) := by
  rw [dropWhile_shown isBlank.dollar, rdropWhile_shown isBlank.digit, trimmed]

theorem map_trimmed {f : α → β} (blank : Char → Bool) (items : List (Item α)) :
    (trimmed blank items).map (Item.map f) = trimmed blank (items.map (Item.map f)) := by
  have same : Item.isChar blank ∘ Item.map f = Item.isChar blank := by
    funext item
    cases item <;> rfl
  rw [trimmed, trimmed, List.dropWhile_map, same]
  simp only [List.rdropWhile, ← List.map_reverse, List.dropWhile_map, same]

end Bozo.Numbering
