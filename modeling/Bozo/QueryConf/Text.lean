import Bozo.QueryConf.Grammar

/-!
# The text of a query

Every colon of a text begins a cast, an assignment or a parameter.  A text that
is made up so is what the grammar accepts, and the elements that it is parsed
into differ from its tokens only in that consecutive parts are joined.
-/

namespace Bozo.QueryConf

open Bozo.Peg
open Bozo.Peg.Parser

/-- A character that is kept as it is. -/
def isPlain (c : Char) : Bool :=
  c != ':' && !isNul c

/-- A text token by token, from left to right. -/
inductive Tokens : List Char → List QueryTextElement → Prop
  | nil : Tokens [] []
  | cast {rest : List Char} {tokens : List QueryTextElement} :
      Tokens rest tokens → Tokens ([':', ':'] ++ rest) (.textPart [':', ':'] :: tokens)
  | assignment {rest : List Char} {tokens : List QueryTextElement} :
      Tokens rest tokens → Tokens ([':', '='] ++ rest) (.textPart [':', '='] :: tokens)
  | plain {c : Char} {rest : List Char} {tokens : List QueryTextElement} :
      isPlain c = true → Tokens rest tokens → Tokens (c :: rest) (.textPart [c] :: tokens)
  | parameter {name rest : List Char} {tokens : List QueryTextElement} :
      name ≠ [] → (∀ c ∈ name, isNameChar c = true) → (∀ c ∈ rest.head?, isNameChar c = false) →
        Tokens rest tokens → Tokens ([':'] ++ name ++ rest) (.parameterName name :: tokens)

namespace QueryTextElement

/-- An element with the name of a parameter replaced. -/
def render (replace : List Char → List Char) : QueryTextElement → List Char
  | .textPart value => value
  | .parameterName name => replace name

/-- The parameter that an element is. -/
def parameter? : QueryTextElement → Option (List Char)
  | .textPart _ => none
  | .parameterName name => some name

end QueryTextElement

/-- Elements that say the same: the same text for every replacement of the
parameters, and the same parameters. -/
structure SameText (elements tokens : List QueryTextElement) : Prop where
  render_eq : ∀ replace, elements.flatMap (·.render replace) = tokens.flatMap (·.render replace)
  parameters_eq : elements.filterMap (·.parameter?) = tokens.filterMap (·.parameter?)

namespace SameText

variable {elements tokens : List QueryTextElement}

theorem refl (tokens : List QueryTextElement) : SameText tokens tokens :=
  ⟨fun _ => rfl, rfl⟩

theorem parameter (same : SameText elements tokens) (name : List Char) :
    SameText (.parameterName name :: elements) (.parameterName name :: tokens) := by
  constructor
  · intro replace
    rw [List.flatMap_cons, List.flatMap_cons, same.render_eq]
  · exact congrArg (List.cons name) same.parameters_eq

/-- A part can be split anywhere. -/
theorem split {first second : List Char}
    (same : SameText (.textPart second :: elements) tokens) :
    SameText (.textPart (first ++ second) :: elements) (.textPart first :: tokens) := by
  constructor
  · intro replace
    rw [List.flatMap_cons, List.flatMap_cons, ← same.render_eq, List.flatMap_cons]
    exact List.append_assoc _ _ _
  · exact same.parameters_eq

theorem empty (same : SameText elements tokens) : SameText (.textPart [] :: elements) tokens := by
  constructor
  · intro replace
    rw [List.flatMap_cons, same.render_eq]
    rfl
  · exact same.parameters_eq

end SameText

/-! ## The parsers of the elements -/

theorem run_plainChar (input : List Char) : plainChar.run input = (tokenIf isPlain).run input := by
  cases input with
  | nil => rfl
  | cons c rest =>
      have runs : plainChar.run (c :: rest) =
          if ((tokenIf isNul).run (c :: rest)).isSome then none
          else if ((tokenIf (· == ':')).run (c :: rest)).isSome then none
          else some (c, rest) := rfl
      rw [runs, run_tokenIf_cons, run_tokenIf_cons, run_tokenIf_cons]
      cases nul : isNul c with
      | true => simp [isPlain, nul]
      | false =>
          by_cases colon : c = ':'
          · simp [isPlain, colon]
          · simp [isPlain, nul, colon]

theorem consumes_plainChar : plainChar.Consumes :=
  Consumes.butNot (Consumes.butNot (consumes_tokenIf _) _) _

theorem run_many1_plainChar_eq_some_iff {input value rest : List Char} :
    (many1 plainChar).run input = some (value, rest) ↔
      value ≠ [] ∧ input = value ++ rest ∧ (∀ c ∈ value, isPlain c = true) ∧
        ∀ c ∈ rest.head?, isPlain c = false := by
  rw [run_many1_eq_some_iff consumes_plainChar, run_many_congr run_plainChar,
    run_many_tokenIf_eq_some_iff]

theorem run_parameterName_eq_some_iff {input name rest : List Char} :
    parameterName.run input = some (name, rest) ↔
      input = [':'] ++ name ++ rest ∧ name ≠ [] ∧ (∀ c ∈ name, isNameChar c = true) ∧
        ∀ c ∈ rest.head?, isNameChar c = false := by
  unfold parameterName
  rw [run_bind_eq_some_iff]
  constructor
  · rintro ⟨_, left, colon, named⟩
    rcases run_literal_eq_some_iff.mp colon with ⟨rfl, rfl⟩
    rw [run_lexeme] at named
    rcases (run_many1_eq_some_iff (consumes_tokenIf _)).mp named with ⟨nonempty, all⟩
    rcases run_many_tokenIf_eq_some_iff.mp all with ⟨rfl, chars, stops⟩
    exact ⟨(List.append_assoc _ _ _).symm, nonempty, chars, stops⟩
  · rintro ⟨rfl, nonempty, chars, stops⟩
    rw [List.append_assoc]
    refine ⟨[':'], name ++ rest, run_literal_append _ _, ?_⟩
    rw [run_lexeme]
    exact (run_many1_eq_some_iff (consumes_tokenIf _)).mpr
      ⟨nonempty, run_many_tokenIf_append chars stops⟩

theorem run_textPiece_eq_some_iff {input value rest : List Char} :
    textPiece.run input = some (value, rest) ↔
      (value = [':', ':'] ∧ input = [':', ':'] ++ rest) ∨
        (value = [':', '='] ∧ input = [':', '='] ++ rest) ∨
        (value ≠ [] ∧ input = value ++ rest ∧ (∀ c ∈ value, isPlain c = true) ∧
          ∀ c ∈ rest.head?, isPlain c = false) := by
  have runs : textPiece.run input = ((literal [':', ':']).run input).or
      (((literal [':', '=']).run input).or ((many1 plainChar).run input)) := rfl
  rw [runs]
  constructor
  · intro parsed
    rcases Option.or_eq_some_iff.mp parsed with cast | ⟨-, parsed⟩
    · exact .inl (run_literal_eq_some_iff.mp cast)
    · rcases Option.or_eq_some_iff.mp parsed with assignment | ⟨-, plain⟩
      · exact .inr (.inl (run_literal_eq_some_iff.mp assignment))
      · exact .inr (.inr (run_many1_plainChar_eq_some_iff.mp plain))
  · rintro (⟨rfl, rfl⟩ | ⟨rfl, rfl⟩ | plain)
    · rw [run_literal_append]
      rfl
    · have notCast : (literal [':', ':']).run ([':', '='] ++ rest) = none := rfl
      rw [notCast, run_literal_append]
      rfl
    · rw [run_many1_plainChar_eq_some_iff.mpr plain]
      rcases plain with ⟨nonempty, rfl, chars, -⟩
      cases value with
      | nil => exact absurd rfl nonempty
      | cons c value =>
          have differs : ':' ≠ c := by
            rintro rfl
            cases chars ':' (List.mem_cons_self ..)
          have notCast : (literal [':', ':']).run (c :: value ++ rest) = none := by
            rw [run_literal, if_neg]
            simp [List.isPrefixOf, differs]
          have notAssignment : (literal [':', '=']).run (c :: value ++ rest) = none := by
            rw [run_literal, if_neg]
            simp [List.isPrefixOf, differs]
          rw [notCast, notAssignment]
          rfl

theorem consumes_textPiece : (lexeme textPiece).Consumes := by
  apply Consumes.lexeme
  apply Consumes.orElse (consumes_literal (by decide))
  exact Consumes.orElse (consumes_literal (by decide)) (Consumes.many1 consumes_plainChar)

theorem run_textPart_eq_some_iff {input value rest : List Char} :
    textPart.run input = some (value, rest) ↔
      ∃ pieces, pieces ≠ [] ∧ pieces.flatten = value ∧
        Star (lexeme textPiece) input pieces rest ∧ textPiece.run rest = none := by
  unfold textPart
  rw [run_map_eq_some_iff]
  constructor
  · rintro ⟨pieces, parsed, joined⟩
    rcases (run_many1_eq_some_iff consumes_textPiece).mp parsed with ⟨nonempty, all⟩
    rcases (run_many_eq_some_iff consumes_textPiece).mp all with ⟨star, failed⟩
    exact ⟨pieces, nonempty, joined, star, (run_lexeme _ _).symm.trans failed⟩
  · rintro ⟨pieces, nonempty, joined, star, failed⟩
    have all := (run_many_eq_some_iff consumes_textPiece).mpr
      ⟨star, (run_lexeme _ _).trans failed⟩
    exact ⟨pieces, (run_many1_eq_some_iff consumes_textPiece).mpr ⟨nonempty, all⟩, joined⟩

theorem run_textElement (input : List Char) :
    textElement.run input = ((QueryTextElement.parameterName <$> parameterName).run input).or
      ((QueryTextElement.textPart <$> textPart).run input) :=
  rfl

theorem consumes_textElement : textElement.Consumes := by
  apply Consumes.orElse
  · exact Consumes.map (Consumes.bind (consumes_literal (by decide)) _) _
  · exact Consumes.map (Consumes.map (Consumes.many1 consumes_textPiece) _) _

/-! ## What is parsed is made up of tokens -/

section Sound

variable {input rest : List Char} {elements tokens : List QueryTextElement}

theorem tokens_of_plain {value later : List Char} (chars : ∀ c ∈ value, isPlain c = true)
    (behind : Tokens rest tokens) (same : SameText (.textPart later :: elements) tokens) :
    ∃ all, Tokens (value ++ rest) all ∧
      SameText (.textPart (value ++ later) :: elements) all := by
  induction value with
  | nil => exact ⟨tokens, behind, same⟩
  | cons c value ih =>
      rcases ih fun other member => chars other (List.mem_cons_of_mem c member) with
        ⟨all, made, sameAll⟩
      have here : isPlain c = true := chars c (List.mem_cons_self ..)
      have joined : SameText (.textPart ([c] ++ (value ++ later)) :: elements)
          (.textPart [c] :: all) := sameAll.split
      exact ⟨_, .plain here made, joined⟩

theorem tokens_of_textPiece {value later : List Char}
    (parsed : textPiece.run input = some (value, rest)) (behind : Tokens rest tokens)
    (same : SameText (.textPart later :: elements) tokens) :
    ∃ all, Tokens input all ∧ SameText (.textPart (value ++ later) :: elements) all := by
  rcases run_textPiece_eq_some_iff.mp parsed with ⟨rfl, rfl⟩ | ⟨rfl, rfl⟩ | ⟨-, rfl, chars, -⟩
  · exact ⟨_, .cast behind, same.split⟩
  · exact ⟨_, .assignment behind, same.split⟩
  · exact tokens_of_plain chars behind same

theorem tokens_of_textPieces {pieces : List (List Char)}
    (star : Star (lexeme textPiece) input pieces rest) (behind : Tokens rest tokens)
    (same : SameText elements tokens) :
    ∃ all, Tokens input all ∧ SameText (.textPart pieces.flatten :: elements) all := by
  induction star with
  | nil => exact ⟨tokens, behind, same.empty⟩
  | cons first star ih =>
      rcases ih behind with ⟨others, made, sameOthers⟩
      rw [run_lexeme] at first
      exact tokens_of_textPiece first made sameOthers

/-- What is parsed into elements is made up of tokens that say the same. -/
theorem tokens_of_elements (star : Star textElement input elements []) :
    ∃ tokens, Tokens input tokens ∧ SameText elements tokens := by
  generalize ends : ([] : List Char) = rest at star
  induction star with
  | nil =>
      subst ends
      exact ⟨[], .nil, .refl []⟩
  | cons first star ih =>
      rcases ih ends with ⟨tokens, behind, same⟩
      rw [run_textElement] at first
      rcases Option.or_eq_some_iff.mp first with named | ⟨-, kept⟩
      · rcases run_map_eq_some_iff.mp named with ⟨name, parsed, rfl⟩
        rcases run_parameterName_eq_some_iff.mp parsed with ⟨rfl, nonempty, chars, stops⟩
        exact ⟨_, .parameter nonempty chars stops behind, same.parameter name⟩
      · rcases run_map_eq_some_iff.mp kept with ⟨value, parsed, rfl⟩
        rcases run_textPart_eq_some_iff.mp parsed with ⟨pieces, -, rfl, pieceStar, -⟩
        exact tokens_of_textPieces pieceStar behind same

end Sound

/-! ## What is made up of tokens is parsed -/

section Complete

variable {input rest : List Char} {tokens : List QueryTextElement}

/-- A parameter begins with a colon and a character of its name. -/
theorem run_parameterName_of_not
    (differs : ∀ c left, input = ':' :: c :: left → isNameChar c = false) :
    parameterName.run input = none := by
  cases parsed : parameterName.run input with
  | none => rfl
  | some result =>
      rcases run_parameterName_eq_some_iff.mp parsed with ⟨same, nonempty, chars, -⟩
      cases named : result.1 with
      | nil => exact absurd named nonempty
      | cons c name =>
          rw [named] at same chars
          have isName := chars c (List.mem_cons_self ..)
          rw [differs c (name ++ result.2) same] at isName
          cases isName

/-- Behind a cast or an assignment there are tokens again. -/
theorem Tokens.of_pair {second : Char} (made : Tokens input tokens)
    (starts : input = [':', second] ++ rest) (noName : isNameChar second = false) :
    ∃ others, tokens = .textPart [':', second] :: others ∧ Tokens rest others := by
  cases made with
  | nil => cases starts
  | cast behind =>
      cases starts
      exact ⟨_, rfl, behind⟩
  | assignment behind =>
      cases starts
      exact ⟨_, rfl, behind⟩
  | plain plain behind =>
      cases starts
      cases plain
  | @parameter name left _ nonempty chars stops behind =>
      cases name with
      | nil => exact absurd rfl nonempty
      | cons c name =>
          cases starts
          cases noName.symm.trans (chars second (List.mem_cons_self ..))

/-- Behind a plain character there are tokens again. -/
theorem Tokens.of_plain {c : Char} (made : Tokens input tokens) (starts : input = c :: rest)
    (plain : isPlain c = true) :
    ∃ others, tokens = .textPart [c] :: others ∧ Tokens rest others := by
  cases made with
  | nil => cases starts
  | cast behind =>
      cases starts
      cases plain
  | assignment behind =>
      cases starts
      cases plain
  | plain _ behind =>
      cases starts
      exact ⟨_, rfl, behind⟩
  | parameter nonempty chars stops behind =>
      cases starts
      cases plain

/-- Behind a piece of text there are the remaining tokens. -/
theorem Tokens.of_textPiece {value : List Char} (made : Tokens input tokens)
    (parsed : textPiece.run input = some (value, rest)) :
    ∃ kept others, tokens = kept ++ others ∧ Tokens rest others := by
  rcases run_textPiece_eq_some_iff.mp parsed with ⟨-, starts⟩ | ⟨-, starts⟩ | ⟨-, starts, chars, -⟩
  · rcases made.of_pair starts rfl with ⟨others, rfl, behind⟩
    exact ⟨[_], others, rfl, behind⟩
  · rcases made.of_pair starts rfl with ⟨others, rfl, behind⟩
    exact ⟨[_], others, rfl, behind⟩
  · clear parsed
    induction value generalizing input tokens with
    | nil =>
        subst starts
        exact ⟨[], tokens, rfl, made⟩
    | cons c value ih =>
        rcases made.of_plain starts (chars c (List.mem_cons_self ..)) with ⟨later, rfl, behind⟩
        rcases ih behind rfl fun other member => chars other (List.mem_cons_of_mem c member) with
          ⟨kept, others, rfl, last⟩
        exact ⟨_ :: kept, others, rfl, last⟩

/-- Behind a parameter there are tokens again. -/
theorem Tokens.of_parameterName {name : List Char} (made : Tokens input tokens)
    (parsed : parameterName.run input = some (name, rest)) :
    ∃ others, tokens = .parameterName name :: others ∧ Tokens rest others := by
  have none : ∀ {c : Char} {left : List Char}, isNameChar c = false →
      parameterName.run (':' :: c :: left) ≠ .some (name, rest) := by
    intro c left noName named
    rw [run_parameterName_of_not] at named
    · cases named
    · rintro _ _ ⟨⟩
      exact noName
  cases made with
  | nil => cases parsed
  | cast behind => exact absurd parsed (none rfl)
  | assignment behind => exact absurd parsed (none rfl)
  | plain plain behind =>
      rcases run_parameterName_eq_some_iff.mp parsed with ⟨same, -⟩
      cases same
      cases plain
  | parameter nonempty chars stops behind =>
      have named := run_parameterName_eq_some_iff.mpr ⟨rfl, nonempty, chars, stops⟩
      rw [named] at parsed
      cases parsed
      exact ⟨_, rfl, behind⟩

/-- A text is made up of tokens in one way only. -/
theorem Tokens.unique {others : List QueryTextElement} (first : Tokens input tokens)
    (second : Tokens input others) : tokens = others := by
  induction first generalizing others with
  | nil =>
      generalize empty : ([] : List Char) = text at second
      cases second with
      | nil => rfl
      | cast behind => cases empty
      | assignment behind => cases empty
      | plain plain behind => cases empty
      | parameter nonempty chars stops behind => cases empty
  | cast _ ih =>
      rcases second.of_pair rfl rfl with ⟨later, rfl, behind⟩
      rw [ih behind]
  | assignment _ ih =>
      rcases second.of_pair rfl rfl with ⟨later, rfl, behind⟩
      rw [ih behind]
  | plain plain _ ih =>
      rcases second.of_plain rfl plain with ⟨later, rfl, behind⟩
      rw [ih behind]
  | parameter nonempty chars stops _ ih =>
      have named := run_parameterName_eq_some_iff.mpr ⟨rfl, nonempty, chars, stops⟩
      rcases second.of_parameterName named with ⟨later, rfl, behind⟩
      rw [ih behind]

theorem Tokens.of_textPieces {pieces : List (List Char)} (made : Tokens input tokens)
    (star : Star (lexeme textPiece) input pieces rest) :
    ∃ kept others, tokens = kept ++ others ∧ Tokens rest others := by
  induction star generalizing tokens with
  | nil => exact ⟨[], tokens, rfl, made⟩
  | cons first star ih =>
      rw [run_lexeme] at first
      rcases made.of_textPiece first with ⟨here, later, rfl, behind⟩
      rcases ih behind with ⟨kept, others, rfl, last⟩
      exact ⟨here ++ kept, others, (List.append_assoc _ _ _).symm, last⟩

/-- Where a piece of text is parsed and no parameter is, a part is. -/
theorem run_textElement_of_textPiece {value : List Char}
    (noParameter : parameterName.run input = none)
    (parsed : textPiece.run input = some (value, rest)) :
    ∃ part pieces left, textElement.run input = some (.textPart part, left) ∧
      Star (lexeme textPiece) input pieces left := by
  have first : (lexeme textPiece).run input = some (value, rest) := (run_lexeme _ _).trans parsed
  rcases exists_run_many1 first with ⟨pieces, left, all⟩
  have star := ((run_many_eq_some_iff consumes_textPiece).mp
    ((run_many1_eq_some_iff consumes_textPiece).mp all).2).1
  have part : (QueryTextElement.textPart <$> textPart).run input =
      some (.textPart pieces.flatten, left) :=
    run_map_eq_some_iff.mpr ⟨_, run_map_eq_some_iff.mpr ⟨pieces, all, rfl⟩, rfl⟩
  refine ⟨pieces.flatten, pieces, left, ?_, star⟩
  have skipped : (QueryTextElement.parameterName <$> parameterName).run input = none :=
    run_bind_of_none noParameter
  rw [run_textElement, skipped, part]
  rfl

/-- The first element of a text that is made up of tokens. -/
theorem Tokens.exists_element (made : Tokens input tokens) (some : input ≠ []) :
    ∃ element left others, textElement.run input = .some (element, left) ∧
      Tokens left others := by
  have part : ∀ {value left}, parameterName.run input = none →
      textPiece.run input = .some (value, left) →
      ∃ element left others, textElement.run input = .some (element, left) ∧
        Tokens left others := by
    intro value left noParameter parsed
    rcases run_textElement_of_textPiece noParameter parsed with ⟨kept, pieces, behind, first, star⟩
    rcases made.of_textPieces star with ⟨-, others, -, madeOthers⟩
    exact ⟨_, behind, others, first, madeOthers⟩
  cases made with
  | nil => exact absurd rfl some
  | cast behind =>
      refine part (run_parameterName_of_not ?_) (run_textPiece_eq_some_iff.mpr (.inl ⟨rfl, rfl⟩))
      rintro c left ⟨⟩
      rfl
  | assignment behind =>
      refine part (run_parameterName_of_not ?_)
        (run_textPiece_eq_some_iff.mpr (.inr (.inl ⟨rfl, rfl⟩)))
      rintro c left ⟨⟩
      rfl
  | @plain c left _ plain behind =>
      have first : plainChar.run (c :: left) = .some (c, left) := by
        rw [run_plainChar, run_tokenIf_cons, plain]
        rfl
      rcases exists_run_many1 first with ⟨value, after, all⟩
      refine part (run_parameterName_of_not ?_) (run_textPiece_eq_some_iff.mpr
        (.inr (.inr (run_many1_plainChar_eq_some_iff.mp all))))
      rintro next others ⟨⟩
      cases plain
  | @parameter name left others nonempty chars stops behind =>
      have named := run_parameterName_eq_some_iff.mpr ⟨rfl, nonempty, chars, stops⟩
      have mapped : (QueryTextElement.parameterName <$> parameterName).run ([':'] ++ name ++ left) =
          .some (.parameterName name, left) := run_map_eq_some_iff.mpr ⟨name, named, rfl⟩
      refine ⟨.parameterName name, left, others, ?_, behind⟩
      rw [run_textElement, mapped]
      rfl

/-- What is made up of tokens is parsed. -/
theorem Tokens.exists_elements (made : Tokens input tokens) :
    ∃ elements, Star textElement input elements [] := by
  induction length : input.length using Nat.strongRecOn generalizing input tokens with
  | _ length ih =>
      subst length
      cases input with
      | nil => exact ⟨[], .nil⟩
      | cons c input =>
          rcases made.exists_element (List.cons_ne_nil c input) with
            ⟨element, left, others, first, behind⟩
          rcases ih _ (consumes_textElement first) behind rfl with ⟨elements, star⟩
          exact ⟨element :: elements, .cons first star⟩

end Complete

/-! ## The text grammar -/

theorem run_text_eq_some_iff {input rest : List Char} {elements : List QueryTextElement} :
    text.run input = some (elements, rest) ↔ Star textElement input elements [] ∧ rest = [] := by
  unfold text
  rw [run_bind_eq_some_iff]
  constructor
  · rintro ⟨found, left, all, ends⟩
    rcases run_bind_eq_some_iff.mp ends with ⟨_, last, isEmpty, same⟩
    rcases run_eoi_eq_some_iff.mp isEmpty with ⟨rfl, rfl⟩
    cases same
    exact ⟨((run_many_eq_some_iff consumes_textElement).mp all).1, rfl⟩
  · rintro ⟨star, rfl⟩
    have all := (run_many_eq_some_iff consumes_textElement).mpr
      ⟨star, consumes_textElement.run_nil⟩
    exact ⟨elements, [], all, rfl⟩

/-- What is parsed says the same as the tokens. -/
theorem sameText_of_run_text {input rest : List Char} {elements : List QueryTextElement}
    (parsed : text.run input = some (elements, rest)) :
    ∃ tokens, Tokens input tokens ∧ SameText elements tokens :=
  tokens_of_elements (run_text_eq_some_iff.mp parsed).1

/-- A text that is made up of tokens is parsed, and says the same. -/
theorem Tokens.run_text {input : List Char} {tokens : List QueryTextElement}
    (made : Tokens input tokens) :
    ∃ elements, text.run input = some (elements, []) ∧ SameText elements tokens := by
  rcases made.exists_elements with ⟨elements, star⟩
  rcases tokens_of_elements star with ⟨others, also, same⟩
  cases made.unique also
  exact ⟨elements, run_text_eq_some_iff.mpr ⟨star, rfl⟩, same⟩

end Bozo.QueryConf
