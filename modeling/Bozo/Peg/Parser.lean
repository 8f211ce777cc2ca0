import Mathlib.Algebra.Ring.Nat
import Mathlib.Data.List.Basic

/-!
# Parsing expressions

A parser takes a prefix of its input or fails.  Choice is ordered and repetition
is greedy; neither is undone once it has succeeded.  A parser is given a set of
tokens to be skipped in front of every token it takes, except where its parts
belong together.

What is left of the input is a suffix of it, and a set of tokens that do not
occur makes no difference.  Parsers carry both facts.
-/

namespace Bozo.Peg

variable {τ α β : Type}

/-- Nothing is skipped. -/
def noSkip (_ : τ) : Bool :=
  false

structure Parser (τ α : Type) where
  parse : (τ → Bool) → List τ → Option (α × List τ)
  suffix : ∀ {skip input value rest}, parse skip input = some (value, rest) → rest <:+ input
  inert : ∀ {skip input}, (∀ token ∈ input, skip token = false) →
    parse skip input = parse noSkip input

namespace Parser

/-- The parser where nothing is skipped. -/
def run (p : Parser τ α) (input : List τ) : Option (α × List τ) :=
  p.parse noSkip input

/-- `phrase_parse`: the value that is parsed from the front of an input. -/
def phraseParse (p : Parser τ α) (skip : τ → Bool) (input : List τ) : Option α :=
  (p.parse skip input).map Prod.fst

theorem phraseParse_eq (p : Parser τ α) {skip : τ → Bool} {input : List τ}
    (absent : ∀ token ∈ input, skip token = false) :
    p.phraseParse skip input = (p.run input).map Prod.fst := by
  rw [phraseParse, p.inert absent, run]

/-! ## Sequences -/

instance : Monad (Parser τ) where
  pure value :=
    { parse := fun _ input => some (value, input)
      suffix := by
        rintro skip input _ _ ⟨⟩
        exact List.suffix_refl input
      inert := fun _ => rfl }
  bind first next :=
    { parse := fun skip input =>
        (first.parse skip input).bind fun (value, rest) => (next value).parse skip rest
      suffix := by
        intro skip input value rest parsed
        rcases Option.bind_eq_some_iff.mp parsed with ⟨⟨middle, left⟩, before, after⟩
        exact ((next middle).suffix after).trans (first.suffix before)
      inert := by
        intro skip input absent
        rw [first.inert absent]
        cases before : first.parse noSkip input with
        | none => rfl
        | some parsed =>
            rcases parsed with ⟨value, rest⟩
            exact (next value).inert fun token member =>
              absent token ((first.suffix before).subset member) }

theorem run_bind (first : Parser τ α) (next : α → Parser τ β) (input : List τ) :
    (first >>= next).run input =
      (first.run input).bind fun (value, rest) => (next value).run rest :=
  rfl

theorem run_bind_of_some {first : Parser τ α} {next : α → Parser τ β} {input rest : List τ}
    {value : α} (parsed : first.run input = some (value, rest)) :
    (first >>= next).run input = (next value).run rest := by
  rw [run_bind, parsed, Option.bind_some]

theorem run_bind_of_none {first : Parser τ α} {next : α → Parser τ β} {input : List τ}
    (failed : first.run input = none) : (first >>= next).run input = none := by
  rw [run_bind, failed, Option.bind_none]

theorem run_bind_eq_some_iff {first : Parser τ α} {next : α → Parser τ β}
    {input rest : List τ} {value : β} :
    (first >>= next).run input = some (value, rest) ↔
      ∃ middle left, first.run input = some (middle, left) ∧
        (next middle).run left = some (value, rest) := by
  rw [run_bind, Option.bind_eq_some_iff]
  constructor
  · rintro ⟨⟨middle, left⟩, before, after⟩
    exact ⟨middle, left, before, after⟩
  · rintro ⟨middle, left, before, after⟩
    exact ⟨⟨middle, left⟩, before, after⟩

theorem run_map_eq_some_iff {f : α → β} {p : Parser τ α} {input rest : List τ} {value : β} :
    (f <$> p).run input = some (value, rest) ↔
      ∃ parsed, p.run input = some (parsed, rest) ∧ f parsed = value := by
  have mapped : (f <$> p).run input = (p >>= fun parsed => pure (f parsed)).run input := rfl
  rw [mapped, run_bind_eq_some_iff]
  constructor
  · rintro ⟨parsed, left, before, same⟩
    cases same
    exact ⟨parsed, before, rfl⟩
  · rintro ⟨parsed, before, rfl⟩
    exact ⟨parsed, rest, before, rfl⟩

/-! ## Tokens -/

/-- The input behind the tokens that are skipped. -/
def skipOver (skip : τ → Bool) (input : List τ) : List τ :=
  input.dropWhile skip

theorem skipOver_suffix (skip : τ → Bool) (input : List τ) : skipOver skip input <:+ input :=
  List.dropWhile_suffix skip

theorem skipOver_of_absent {skip : τ → Bool} {input : List τ}
    (absent : ∀ token ∈ input, skip token = false) : skipOver skip input = input := by
  cases input with
  | nil => rfl
  | cons token rest =>
      rw [skipOver, List.dropWhile_cons_of_neg]
      rw [absent token (List.mem_cons_self ..)]
      exact Bool.false_ne_true

theorem skipOver_noSkip (input : List τ) : skipOver noSkip input = input :=
  skipOver_of_absent fun _ _ => rfl

/-- A token that passes a test. -/
def tokenIf (test : τ → Bool) : Parser τ τ where
  parse skip input :=
    match skipOver skip input with
    | [] => none
    | token :: rest => if test token then some (token, rest) else none
  suffix := by
    intro skip input value rest parsed
    have skipped := skipOver_suffix skip input
    split at parsed
    · cases parsed
    · rename_i token left behind
      rw [behind] at skipped
      split at parsed
      · cases parsed
        exact (List.suffix_cons _ _).trans skipped
      · cases parsed
  inert := by
    intro skip input absent
    rw [skipOver_of_absent absent, skipOver_noSkip]

theorem run_tokenIf_cons (test : τ → Bool) (token : τ) (rest : List τ) :
    (tokenIf test).run (token :: rest) = if test token then some (token, rest) else none :=
  rfl

section Literals

variable [DecidableEq τ]

/-- A fixed sequence of tokens. -/
def literal (tokens : List τ) : Parser τ (List τ) where
  parse skip input :=
    if tokens.isPrefixOf (skipOver skip input) then
      some (tokens, (skipOver skip input).drop tokens.length)
    else
      none
  suffix := by
    intro skip input value rest parsed
    split at parsed
    · cases parsed
      exact (List.drop_suffix _ _).trans (skipOver_suffix skip input)
    · cases parsed
  inert := by
    intro skip input absent
    rw [skipOver_of_absent absent, skipOver_noSkip]

theorem run_literal (tokens input : List τ) :
    (literal tokens).run input =
      if tokens.isPrefixOf input then some (tokens, input.drop tokens.length) else none := by
  have skipped : skipOver noSkip input = input := skipOver_noSkip input
  simp only [run, literal, skipped]

theorem run_literal_append (tokens rest : List τ) :
    (literal tokens).run (tokens ++ rest) = some (tokens, rest) := by
  rw [run_literal, if_pos (List.isPrefixOf_iff_prefix.mpr (List.prefix_append tokens rest)),
    List.drop_left]

theorem run_literal_eq_some_iff {tokens input value rest : List τ} :
    (literal tokens).run input = some (value, rest) ↔
      value = tokens ∧ input = tokens ++ rest := by
  constructor
  · intro parsed
    rw [run_literal] at parsed
    split at parsed
    · rename_i starts
      cases parsed
      rcases List.isPrefixOf_iff_prefix.mp starts with ⟨left, rfl⟩
      rw [List.drop_left]
      exact ⟨rfl, rfl⟩
    · cases parsed
  · rintro ⟨rfl, rfl⟩
    exact run_literal_append value rest

end Literals

/-- The end of the input. -/
def eoi : Parser τ Unit where
  parse skip input := if (skipOver skip input).isEmpty then some ((), skipOver skip input) else none
  suffix := by
    intro skip input value rest parsed
    split at parsed
    · cases parsed
      exact skipOver_suffix skip input
    · cases parsed
  inert := by
    intro skip input absent
    rw [skipOver_of_absent absent, skipOver_noSkip]

theorem run_eoi_eq_some_iff {input rest : List τ} {value : Unit} :
    (eoi : Parser τ Unit).run input = some (value, rest) ↔ input = [] ∧ rest = [] := by
  have skipped : skipOver noSkip input = input := skipOver_noSkip input
  simp only [run, eoi, skipped]
  cases input with
  | nil =>
      constructor
      · rintro ⟨⟩
        exact ⟨rfl, rfl⟩
      · rintro ⟨-, rfl⟩
        rfl
  | cons token input =>
      constructor
      · nofun
      · rintro ⟨same, -⟩
        cases same

/-- The parts of a token: nothing is skipped between them. -/
def lexeme (p : Parser τ α) : Parser τ α where
  parse skip input := p.parse noSkip (skipOver skip input)
  suffix := by
    intro skip input value rest parsed
    exact (p.suffix parsed).trans (skipOver_suffix skip input)
  inert := by
    intro skip input absent
    rw [skipOver_of_absent absent, skipOver_noSkip]

theorem run_lexeme (p : Parser τ α) (input : List τ) : (lexeme p).run input = p.run input := by
  have skipped : skipOver noSkip input = input := skipOver_noSkip input
  simp only [run, lexeme, skipped]

/-! ## Choice -/

/-- The first parser, or the second one where it fails. -/
def orElse (first second : Parser τ α) : Parser τ α where
  parse skip input := (first.parse skip input).or (second.parse skip input)
  suffix := by
    intro skip input value rest parsed
    rcases Option.or_eq_some_iff.mp parsed with here | ⟨-, there⟩
    · exact first.suffix here
    · exact second.suffix there
  inert := by
    intro skip input absent
    rw [first.inert absent, second.inert absent]

instance : OrElse (Parser τ α) where
  orElse first second := orElse first (second ())

theorem run_orElse (first second : Parser τ α) (input : List τ) :
    (first <|> second).run input = (first.run input).or (second.run input) :=
  rfl

/-- The parser, or nothing where it fails. -/
def optional (p : Parser τ α) : Parser τ (Option α) :=
  (some <$> p) <|> pure none

theorem run_optional_eq_some_iff {p : Parser τ α} {input rest : List τ} {value : Option α} :
    (optional p).run input = some (value, rest) ↔
      (∃ parsed, p.run input = some (parsed, rest) ∧ value = some parsed) ∨
        (p.run input = none ∧ value = none ∧ rest = input) := by
  have runs : (optional p).run input =
      ((p.run input).bind fun (parsed, rest) => some (some parsed, rest)).or
        (some (none, input)) := rfl
  rw [runs]
  cases parsed : p.run input with
  | none =>
      constructor
      · rintro ⟨⟩
        exact .inr ⟨rfl, rfl, rfl⟩
      · rintro (⟨_, same, -⟩ | ⟨-, rfl, rfl⟩)
        · cases same
        · rfl
  | some result =>
      rcases result with ⟨found, left⟩
      constructor
      · rintro ⟨⟩
        exact .inl ⟨found, rfl, rfl⟩
      · rintro (⟨_, same, rfl⟩ | ⟨same, -⟩)
        · cases same
          rfl
        · cases same

/-- The first parser, where the second one fails. -/
def butNot (first : Parser τ α) (second : Parser τ β) : Parser τ α where
  parse skip input := if (second.parse skip input).isSome then none else first.parse skip input
  suffix := by
    intro skip input value rest parsed
    split at parsed
    · cases parsed
    · exact first.suffix parsed
  inert := by
    intro skip input absent
    rw [first.inert absent, second.inert absent]

theorem run_butNot (first : Parser τ α) (second : Parser τ β) (input : List τ) :
    (butNot first second).run input =
      if (second.run input).isSome then none else first.run input :=
  rfl

/-! ## Repetition -/

/-- The parser over and over again, at most as often as the bound says. -/
def repeatUpTo (p : Parser τ α) (skip : τ → Bool) : Nat → List τ → List α × List τ
  | 0, input => ([], input)
  | bound + 1, input =>
      match p.parse skip input with
      | none => ([], input)
      | some (value, rest) =>
          let (values, left) := p.repeatUpTo skip bound rest
          (value :: values, left)

theorem repeatUpTo_suffix (p : Parser τ α) (skip : τ → Bool) (bound : Nat) (input : List τ) :
    (p.repeatUpTo skip bound input).2 <:+ input := by
  induction bound generalizing input with
  | zero => exact List.suffix_refl input
  | succ bound ih =>
      unfold repeatUpTo
      split
      · exact List.suffix_refl input
      · rename_i value rest parsed
        exact (ih rest).trans (p.suffix parsed)

theorem repeatUpTo_inert (p : Parser τ α) {skip : τ → Bool} (bound : Nat) {input : List τ}
    (absent : ∀ token ∈ input, skip token = false) :
    p.repeatUpTo skip bound input = p.repeatUpTo noSkip bound input := by
  induction bound generalizing input with
  | zero => rfl
  | succ bound ih =>
      unfold repeatUpTo
      rw [p.inert absent]
      split
      · rfl
      · rename_i value rest parsed
        rw [ih fun token member => absent token ((p.suffix parsed).subset member)]

/-- The parser as often as it succeeds.  It is to take at least one token each
time, so that the length of the input bounds the repetition. -/
def many (p : Parser τ α) : Parser τ (List α) where
  parse skip input := some (p.repeatUpTo skip input.length input)
  suffix := by
    intro skip input value rest parsed
    have left := p.repeatUpTo_suffix skip input.length input
    rw [Option.some.inj parsed] at left
    exact left
  inert := by
    intro skip input absent
    rw [p.repeatUpTo_inert _ absent]

/-- The parser once and then as often as it succeeds. -/
def many1 (p : Parser τ α) : Parser τ (List α) := do
  let first ← p
  let others ← many p
  return first :: others

/-- The parser takes at least one token. -/
def Consumes (p : Parser τ α) : Prop :=
  ∀ {input value rest}, p.run input = some (value, rest) → rest.length < input.length

theorem Consumes.run_nil {p : Parser τ α} (consumes : p.Consumes) : p.run [] = none := by
  cases parsed : p.run [] with
  | none => rfl
  | some result => cases consumes parsed

theorem Consumes.repeatUpTo_nil {p : Parser τ α} (consumes : p.Consumes) (bound : Nat) :
    p.repeatUpTo noSkip bound [] = ([], []) := by
  have failed : p.parse noSkip [] = none := consumes.run_nil
  cases bound with
  | zero => rfl
  | succ bound => simp only [repeatUpTo, failed]

/-- All bounds that are not below the length are the same. -/
theorem Consumes.repeatUpTo_eq {p : Parser τ α} (consumes : p.Consumes) {bound other : Nat}
    {input : List τ} (enough : input.length ≤ bound) (also : input.length ≤ other) :
    p.repeatUpTo noSkip bound input = p.repeatUpTo noSkip other input := by
  induction bound generalizing other input with
  | zero =>
      cases List.length_eq_zero_iff.mp (Nat.le_zero.mp enough)
      rw [consumes.repeatUpTo_nil, consumes.repeatUpTo_nil]
  | succ bound ih =>
      cases other with
      | zero =>
          cases List.length_eq_zero_iff.mp (Nat.le_zero.mp also)
          rw [consumes.repeatUpTo_nil, consumes.repeatUpTo_nil]
      | succ other =>
          cases parsed : p.parse noSkip input with
          | none => simp only [repeatUpTo, parsed]
          | some result =>
              rcases result with ⟨value, rest⟩
              have shorter := consumes parsed
              simp only [repeatUpTo, parsed]
              have within : rest.length ≤ bound ∧ rest.length ≤ other := by omega
              rw [ih within.1 within.2]

theorem run_many_of_none {p : Parser τ α} {input : List τ} (failed : p.run input = none) :
    (many p).run input = some ([], input) := by
  have failed : p.parse noSkip input = none := failed
  cases input with
  | nil => rfl
  | cons token input => simp only [run, many, repeatUpTo, failed, List.length_cons]

theorem run_many_of_some {p : Parser τ α} (consumes : p.Consumes) {input rest left : List τ}
    {value : α} {values : List α} (parsed : p.run input = some (value, rest))
    (others : (many p).run rest = some (values, left)) :
    (many p).run input = some (value :: values, left) := by
  have shorter := consumes parsed
  have parsed : p.parse noSkip input = some (value, rest) := parsed
  have others : p.repeatUpTo noSkip rest.length rest = (values, left) := Option.some.inj others
  cases input with
  | nil => cases shorter
  | cons token input =>
      have enough : rest.length ≤ input.length := Nat.lt_succ_iff.mp shorter
      simp only [run, many, repeatUpTo, parsed, List.length_cons]
      rw [consumes.repeatUpTo_eq enough (Nat.le_refl _), others]

/-- A repetition of parsers, one behind the other. -/
inductive Star (p : Parser τ α) : List τ → List α → List τ → Prop
  | nil {input : List τ} : Star p input [] input
  | cons {input rest left : List τ} {value : α} {values : List α} :
      p.run input = some (value, rest) → Star p rest values left →
        Star p input (value :: values) left

/-- A repetition stops between any two of its values. -/
theorem Star.split {p : Parser τ α} {input left : List τ} {before after : List α}
    (star : Star p input (before ++ after) left) :
    ∃ middle, Star p input before middle ∧ Star p middle after left := by
  induction before generalizing input with
  | nil => exact ⟨input, .nil, star⟩
  | cons value before ih =>
      cases star with
      | cons first star =>
          rcases ih star with ⟨middle, front, back⟩
          exact ⟨middle, .cons first front, back⟩

/-- What `many` takes is a repetition behind which the parser fails. -/
theorem run_many_eq_some_iff {p : Parser τ α} (consumes : p.Consumes) {input left : List τ}
    {values : List α} :
    (many p).run input = some (values, left) ↔ Star p input values left ∧ p.run left = none := by
  constructor
  · intro parsed
    induction length : input.length using Nat.strongRecOn generalizing input values with
    | _ length ih =>
        subst length
        cases first : p.run input with
        | none =>
            rw [run_many_of_none first] at parsed
            cases parsed
            exact ⟨.nil, first⟩
        | some result =>
            rcases result with ⟨value, rest⟩
            have all := run_many_of_some consumes first (rfl : (many p).run rest = some (_, _))
            rw [parsed] at all
            cases all
            rcases ih _ (consumes first) rfl rfl with ⟨star, failed⟩
            exact ⟨.cons first star, failed⟩
  · rintro ⟨star, failed⟩
    induction star with
    | nil => exact run_many_of_none failed
    | cons first star ih => exact run_many_of_some consumes first (ih failed)

/-- `many1` takes what `many` does, unless that is nothing. -/
theorem run_many1_eq_some_iff {p : Parser τ α} (consumes : p.Consumes) {input left : List τ}
    {values : List α} :
    (many1 p).run input = some (values, left) ↔
      values ≠ [] ∧ (many p).run input = some (values, left) := by
  unfold many1
  rw [run_bind_eq_some_iff]
  constructor
  · rintro ⟨first, rest, parsed, others⟩
    rcases run_bind_eq_some_iff.mp others with ⟨more, _, again, same⟩
    cases same
    exact ⟨List.cons_ne_nil _ _, run_many_of_some consumes parsed again⟩
  · rintro ⟨some, parsed⟩
    rcases (run_many_eq_some_iff consumes).mp parsed with ⟨star, failed⟩
    cases star with
    | nil => exact absurd rfl some
    | @cons _ rest _ first more before after =>
        have others := (run_many_eq_some_iff consumes).mpr ⟨after, failed⟩
        exact ⟨first, rest, before, run_bind_eq_some_iff.mpr ⟨more, left, others, rfl⟩⟩

/-- Nothing more than one success is needed. -/
theorem exists_run_many1 {p : Parser τ α} {input rest : List τ} {value : α}
    (parsed : p.run input = some (value, rest)) :
    ∃ values left, (many1 p).run input = some (values, left) := by
  have others : (many p).run rest = some (_, _) := rfl
  exact ⟨_, _, (run_bind_of_some parsed).trans (run_bind_of_some others)⟩

/-- Parsers that do the same are repeated in the same way. -/
theorem run_many_congr {p q : Parser τ α} (same : ∀ input, p.run input = q.run input)
    (input : List τ) : (many p).run input = (many q).run input := by
  have upTo : ∀ bound input, p.repeatUpTo noSkip bound input = q.repeatUpTo noSkip bound input := by
    intro bound
    induction bound with
    | zero => exact fun input => rfl
    | succ bound ih =>
        intro input
        have here : p.parse noSkip input = q.parse noSkip input := same input
        simp only [repeatUpTo, here, ih]
  exact congrArg some (upTo input.length input)

/-! ## Parsers that take tokens -/

theorem consumes_tokenIf (test : τ → Bool) : (tokenIf test).Consumes := by
  intro input value rest parsed
  cases input with
  | nil => cases parsed
  | cons token input =>
      rw [run_tokenIf_cons] at parsed
      split at parsed
      · cases parsed
        exact Nat.lt_succ_self _
      · cases parsed

theorem Consumes.bind {first : Parser τ α} (consumes : first.Consumes)
    (next : α → Parser τ β) : (first >>= next).Consumes := by
  intro input value rest parsed
  rcases run_bind_eq_some_iff.mp parsed with ⟨middle, left, before, after⟩
  exact Nat.lt_of_le_of_lt ((next middle).suffix after).length_le (consumes before)

theorem consumes_bind_of_next (first : Parser τ α) {next : α → Parser τ β}
    (consumes : ∀ value, (next value).Consumes) : (first >>= next).Consumes := by
  intro input value rest parsed
  rcases run_bind_eq_some_iff.mp parsed with ⟨middle, left, before, after⟩
  exact Nat.lt_of_lt_of_le (consumes middle after) (first.suffix before).length_le

theorem Consumes.orElse {first second : Parser τ α} (consumes : first.Consumes)
    (also : second.Consumes) : (first <|> second).Consumes := by
  intro input value rest parsed
  rw [run_orElse] at parsed
  rcases Option.or_eq_some_iff.mp parsed with here | ⟨-, there⟩
  · exact consumes here
  · exact also there

theorem Consumes.lexeme {p : Parser τ α} (consumes : p.Consumes) : (lexeme p).Consumes := by
  intro input value rest parsed
  rw [run_lexeme] at parsed
  exact consumes parsed

theorem Consumes.map {p : Parser τ α} (consumes : p.Consumes) (f : α → β) :
    (f <$> p).Consumes := by
  intro input value rest parsed
  rcases run_map_eq_some_iff.mp parsed with ⟨_, before, -⟩
  exact consumes before

theorem Consumes.butNot {first : Parser τ α} (consumes : first.Consumes)
    (second : Parser τ β) : (butNot first second).Consumes := by
  intro input value rest parsed
  rw [run_butNot] at parsed
  split at parsed
  · cases parsed
  · exact consumes parsed

theorem Consumes.many1 {p : Parser τ α} (consumes : p.Consumes) : (many1 p).Consumes :=
  consumes.bind _

theorem consumes_literal [DecidableEq τ] {tokens : List τ} (some : tokens ≠ []) :
    (literal tokens).Consumes := by
  intro input value rest parsed
  rcases run_literal_eq_some_iff.mp parsed with ⟨-, rfl⟩
  rw [List.length_append]
  exact Nat.lt_add_of_pos_left (List.length_pos_iff.mpr some)

/-! ## Runs of tokens -/

/-- A run of tokens up to one that does not pass. -/
theorem run_many_tokenIf_append {test : τ → Bool} {passing rest : List τ}
    (all : ∀ token ∈ passing, test token = true)
    (stops : ∀ token ∈ rest.head?, test token = false) :
    (many (tokenIf test)).run (passing ++ rest) = some (passing, rest) := by
  induction passing with
  | nil =>
      apply run_many_of_none
      cases rest with
      | nil => rfl
      | cons token rest =>
          rw [List.nil_append, run_tokenIf_cons, stops token rfl]
          rfl
  | cons token passing ih =>
      have here : test token = true := all token (List.mem_cons_self ..)
      have others := ih fun other member => all other (List.mem_cons_of_mem token member)
      apply run_many_of_some (consumes_tokenIf test) _ others
      rw [List.cons_append, run_tokenIf_cons, here]
      rfl

/-- A run of tokens ends before one that does not pass. -/
theorem run_many_tokenIf_eq_some_iff {test : τ → Bool} {input values rest : List τ} :
    (many (tokenIf test)).run input = some (values, rest) ↔
      input = values ++ rest ∧ (∀ token ∈ values, test token = true) ∧
        ∀ token ∈ rest.head?, test token = false := by
  constructor
  · intro parsed
    rcases (run_many_eq_some_iff (consumes_tokenIf test)).mp parsed with ⟨star, failed⟩
    have stops : ∀ token ∈ rest.head?, test token = false := by
      intro token isFirst
      cases rest with
      | nil => cases isFirst
      | cons other rest =>
          cases isFirst
          rw [run_tokenIf_cons] at failed
          split at failed
          · cases failed
          · exact Bool.eq_false_iff.mpr ‹_›
    induction star with
    | nil => exact ⟨rfl, nofun, stops⟩
    | @cons input rest left value values first star ih =>
        rcases ih ((run_many_eq_some_iff (consumes_tokenIf test)).mpr ⟨star, failed⟩) failed stops
          with ⟨rfl, all, -⟩
        cases input with
        | nil => cases first
        | cons token input =>
            rw [run_tokenIf_cons] at first
            split at first
            · rename_i passes
              cases first
              refine ⟨rfl, ?_, stops⟩
              intro other member
              rcases List.mem_cons.mp member with rfl | later
              · exact passes
              · exact all other later
            · cases first
  · rintro ⟨rfl, all, stops⟩
    exact run_many_tokenIf_append all stops

end Parser

end Bozo.Peg
