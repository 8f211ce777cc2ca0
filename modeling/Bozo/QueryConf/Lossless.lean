import Bozo.QueryConf.Layout
import Mathlib.Computability.Language
import Mathlib.Data.List.TakeWhile

/-!
# Nothing is lost by parsing

The text grammar accepts the texts of a regular language and gives back elements
that can be written as the text again.  The line grammar accepts every text and
gives back its lines.
-/

namespace Bozo.QueryConf

open Bozo.Peg
open Bozo.Peg.Parser
open Computability

/-! ## The language of texts -/

/-- `"::" | ":=" | [^:]+ | ":" [A-Za-z0-9_]+`. -/
def tokenLanguage : Language Char :=
  {word | word = [':', ':'] ∨ word = [':', '='] ∨ (word ≠ [] ∧ ∀ c ∈ word, c ≠ ':') ∨
    ∃ name, name ≠ [] ∧ (∀ c ∈ name, isNameChar c = true) ∧ word = [':'] ++ name}

/-- Words of tokens. -/
def textLanguage : Language Char :=
  tokenLanguage∗

/-- Elements as they are written in a query configuration. -/
def source (elements : List QueryTextElement) : List Char :=
  elements.flatMap (·.render ([':'] ++ ·))

theorem source_cons (element : QueryTextElement) (elements : List QueryTextElement) :
    source (element :: elements) = element.render ([':'] ++ ·) ++ source elements :=
  List.flatMap_cons

theorem source_append (first second : List QueryTextElement) :
    source (first ++ second) = source first ++ source second :=
  List.flatMap_append

section Language

variable {input rest : List Char} {tokens : List QueryTextElement}

/-- Tokens are written as the text that they were found in. -/
theorem Tokens.source_eq (made : Tokens input tokens) : source tokens = input := by
  induction made with
  | nil => rfl
  | cast _ ih => rw [source_cons, ih]; rfl
  | assignment _ ih => rw [source_cons, ih]; rfl
  | plain _ _ ih => rw [source_cons, ih]; rfl
  | parameter _ _ _ _ ih => rw [source_cons, ih]; rfl

theorem Tokens.mem_tokenLanguage (made : Tokens input tokens) :
    ∀ token ∈ tokens, token.render ([':'] ++ ·) ∈ tokenLanguage := by
  induction made with
  | nil => nofun
  | cast _ ih => exact List.forall_mem_cons.mpr ⟨.inl rfl, ih⟩
  | assignment _ ih => exact List.forall_mem_cons.mpr ⟨.inr (.inl rfl), ih⟩
  | @plain c _ _ plain _ ih =>
      have noColon : ∀ other ∈ [c], other ≠ ':' := by
        rintro other member rfl
        rw [← List.mem_singleton.mp member] at plain
        cases plain
      exact List.forall_mem_cons.mpr ⟨.inr (.inr (.inl ⟨List.cons_ne_nil c [], noColon⟩)), ih⟩
  | parameter nonempty chars _ _ ih =>
      exact List.forall_mem_cons.mpr ⟨.inr (.inr (.inr ⟨_, nonempty, chars, rfl⟩)), ih⟩

theorem Tokens.mem_textLanguage (made : Tokens input tokens) : input ∈ textLanguage := by
  apply Language.mem_kstar.mpr
  use tokens.map (·.render ([':'] ++ ·))
  constructor
  · rw [← made.source_eq]
    rfl
  · intro word member
    rcases List.mem_map.mp member with ⟨token, known, rfl⟩
    exact made.mem_tokenLanguage token known

theorem isPlain_of_isNameChar {c : Char} (isName : isNameChar c = true) : isPlain c = true := by
  have notColon : c ≠ ':' := by
    rintro rfl
    cases isName
  have notNul : c ≠ '\x00' := by
    rintro rfl
    cases isName
  simp [isPlain, isNul, notColon, notNul]

/-- Characters of names are tokens by themselves. -/
theorem Tokens.of_names {name : List Char} (chars : ∀ c ∈ name, isNameChar c = true)
    (made : Tokens (name ++ rest) tokens) : ∃ others, Tokens rest others := by
  induction name generalizing tokens with
  | nil => exact ⟨tokens, made⟩
  | cons c name ih =>
      rcases List.forall_mem_cons.mp chars with ⟨isName, chars⟩
      rcases made.of_plain rfl (isPlain_of_isNameChar isName) with ⟨others, -, behind⟩
      exact ih chars behind

/-- A parameter takes the characters of names behind it. -/
theorem Tokens.exists_parameter {name : List Char} (nonempty : name ≠ [])
    (chars : ∀ c ∈ name, isNameChar c = true) (behind : Tokens rest tokens) :
    ∃ all, Tokens ([':'] ++ name ++ rest) all := by
  have split : rest.takeWhile isNameChar ++ rest.dropWhile isNameChar = rest :=
    List.takeWhile_append_dropWhile
  have taken : ∀ c ∈ rest.takeWhile isNameChar, isNameChar c = true := fun c member =>
    List.mem_takeWhile_imp member
  rw [← split] at behind
  rcases behind.of_names taken with ⟨others, last⟩
  have stops : ∀ c ∈ (rest.dropWhile isNameChar).head?, isNameChar c = false := by
    intro c isFirst
    have found := List.head?_dropWhile_not isNameChar rest
    rw [Option.mem_def.mp isFirst] at found
    simpa using found
  have both : ∀ c ∈ name ++ rest.takeWhile isNameChar, isNameChar c = true := by
    intro c member
    rcases List.mem_append.mp member with first | second
    · exact chars c first
    · exact taken c second
  have some : name ++ rest.takeWhile isNameChar ≠ [] := List.append_ne_nil_of_left_ne_nil nonempty _
  have made := Tokens.parameter some both stops last
  rw [List.append_assoc, List.append_assoc, split, ← List.append_assoc] at made
  exact ⟨_, made⟩

/-- One more word in front of tokens. -/
theorem Tokens.exists_cons {word : List Char} (member : word ∈ tokenLanguage)
    (nulFree : NulFree word) (behind : Tokens rest tokens) : ∃ all, Tokens (word ++ rest) all := by
  rcases member with rfl | rfl | ⟨-, noColon⟩ | ⟨name, nonempty, chars, rfl⟩
  · exact ⟨_, .cast behind⟩
  · exact ⟨_, .assignment behind⟩
  · have plain : ∀ c ∈ word, isPlain c = true := by
      intro c member
      simp [isPlain, noColon c member, nulFree c member]
    rcases tokens_of_plain plain behind (SameText.refl tokens).empty with ⟨all, made, -⟩
    exact ⟨all, made⟩
  · exact Tokens.exists_parameter nonempty chars behind

/-- A text of the language is made up of tokens. -/
theorem exists_tokens (member : input ∈ textLanguage) (nulFree : NulFree input) :
    ∃ tokens, Tokens input tokens := by
  rcases Language.mem_kstar.mp member with ⟨words, rfl, members⟩
  clear member
  induction words with
  | nil => exact ⟨[], .nil⟩
  | cons word words ih =>
      rw [List.flatten_cons] at nulFree ⊢
      rcases List.forall_mem_cons.mp members with ⟨member, members⟩
      have front : NulFree word := fun c inside => nulFree c (List.mem_append_left _ inside)
      have back : NulFree words.flatten := fun c inside => nulFree c (List.mem_append_right _ inside)
      rcases ih members back with ⟨tokens, behind⟩
      exact behind.exists_cons member front

end Language

/-! ## Elements -/

section Elements

variable {input rest : List Char} {elements tokens : List QueryTextElement}

/-- A piece of text is taken as it is. -/
theorem eq_append_of_textPiece {value : List Char}
    (parsed : textPiece.run input = some (value, rest)) : input = value ++ rest := by
  rcases run_textPiece_eq_some_iff.mp parsed with ⟨rfl, same⟩ | ⟨rfl, same⟩ | ⟨-, same, -⟩
  · exact same
  · exact same
  · exact same

theorem eq_flatten_append_of_star {pieces : List (List Char)}
    (star : Star (lexeme textPiece) input pieces rest) : input = pieces.flatten ++ rest := by
  induction star with
  | nil => rfl
  | cons first _ ih =>
      rw [run_lexeme] at first
      rw [eq_append_of_textPiece first, List.flatten_cons, List.append_assoc, ← ih]

/-- What an element can be: a parameter whose name ends where its characters do,
or a part behind which no other part can be taken. -/
theorem textElement_cases {element : QueryTextElement}
    (parsed : textElement.run input = some (element, rest)) :
    (∃ name, element = .parameterName name ∧ parameterName.run input = some (name, rest)) ∨
      ∃ pieces, element = .textPart pieces.flatten ∧
        Star (lexeme textPiece) input pieces rest ∧ pieces ≠ [] ∧ textPiece.run rest = none := by
  rw [run_textElement] at parsed
  rcases Option.or_eq_some_iff.mp parsed with named | ⟨-, kept⟩
  · rcases run_map_eq_some_iff.mp named with ⟨name, parsed, same⟩
    exact .inl ⟨name, same.symm, parsed⟩
  · rcases run_map_eq_some_iff.mp kept with ⟨value, parsed, same⟩
    rcases run_textPart_eq_some_iff.mp parsed with ⟨pieces, nonempty, rfl, star, failed⟩
    exact .inr ⟨pieces, same.symm, star, nonempty, failed⟩

/-- Elements are written as the text that they were parsed from. -/
theorem eq_source_append_of_star (star : Star textElement input elements rest) :
    input = source elements ++ rest := by
  induction star with
  | nil => rfl
  | cons first _ ih =>
      rw [source_cons, List.append_assoc, ← ih]
      rcases textElement_cases first with ⟨name, rfl, named⟩ | ⟨pieces, rfl, pieceStar, -⟩
      · exact (run_parameterName_eq_some_iff.mp named).1
      · exact eq_flatten_append_of_star pieceStar

/-- Behind a part there is no other one. -/
theorem not_textPart_textPart {before after : List QueryTextElement} {first second : List Char}
    (star : Star textElement input (before ++ .textPart first :: .textPart second :: after) rest) :
    False := by
  rcases star.split with ⟨middle, -, star⟩
  cases star with
  | cons taken star =>
      cases star with
      | cons next _ =>
          rcases textElement_cases taken with ⟨name, ⟨⟩, -⟩ | ⟨pieces, -, -, -, failed⟩
          rcases textElement_cases next with ⟨name, ⟨⟩, -⟩ | ⟨others, -, again, nonempty, -⟩
          cases again with
          | nil => exact nonempty rfl
          | cons piece _ =>
              rw [run_lexeme, failed] at piece
              cases piece

/-- The name of a parameter is taken as far as it goes. -/
theorem maximal_of_star {before after : List QueryTextElement} {name : List Char}
    (star : Star textElement input (before ++ .parameterName name :: after) []) :
    name ≠ [] ∧ (∀ c ∈ name, isNameChar c = true) ∧
      ∀ c ∈ (source after).head?, isNameChar c = false := by
  rcases star.split with ⟨middle, -, star⟩
  cases star with
  | @cons _ left _ _ _ taken star =>
      have written := eq_source_append_of_star star
      rw [List.append_nil] at written
      rw [← written]
      rcases textElement_cases taken with ⟨_, ⟨⟩, named⟩ | ⟨pieces, ⟨⟩, -⟩
      exact (run_parameterName_eq_some_iff.mp named).2

/-- The tokens of the text of some elements stand at the front. -/
theorem Tokens.of_star (made : Tokens input tokens) (star : Star textElement input elements rest) :
    ∃ kept others, tokens = kept ++ others ∧ Tokens rest others := by
  induction star generalizing tokens with
  | nil => exact ⟨[], tokens, rfl, made⟩
  | @cons _ left _ _ _ first _ ih =>
      have behind : ∃ kept others, tokens = kept ++ others ∧ Tokens left others := by
        rcases textElement_cases first with ⟨name, -, named⟩ | ⟨pieces, -, pieceStar, -⟩
        · rcases made.of_parameterName named with ⟨others, rfl, behind⟩
          exact ⟨[_], others, rfl, behind⟩
        · exact made.of_textPieces pieceStar
      rcases behind with ⟨here, later, rfl, behind⟩
      rcases ih behind with ⟨kept, others, rfl, last⟩
      exact ⟨here ++ kept, others, (List.append_assoc _ _ _).symm, last⟩

/-- A parameter is a token of the text at the same place. -/
theorem Tokens.parameter_of_star {before after : List QueryTextElement} {name : List Char}
    (made : Tokens input tokens)
    (star : Star textElement input (before ++ .parameterName name :: after) rest) :
    ∃ kept others, tokens = kept ++ .parameterName name :: others ∧ source kept = source before := by
  rcases star.split with ⟨middle, front, back⟩
  rcases made.of_star front with ⟨kept, later, rfl, behind⟩
  have same : source kept ++ middle = source before ++ middle := by
    rw [← behind.source_eq, ← source_append, made.source_eq, behind.source_eq]
    exact eq_source_append_of_star front
  cases back with
  | cons taken _ =>
      rcases textElement_cases taken with ⟨_, ⟨⟩, named⟩ | ⟨pieces, ⟨⟩, -⟩
      rcases behind.of_parameterName named with ⟨others, rfl, -⟩
      exact ⟨kept, others, rfl, List.append_cancel_right same⟩

/-- Different tokens have no character in common. -/
theorem source_apart {first second : QueryTextElement} (differ : first ≠ second)
    {before after others rest : List QueryTextElement}
    (same : before ++ first :: after = others ++ second :: rest) :
    (source before).length + (first.render ([':'] ++ ·)).length ≤ (source others).length ∨
      (source others).length + (second.render ([':'] ++ ·)).length ≤ (source before).length := by
  rcases List.append_eq_append_iff.mp same with ⟨between, rfl, inside⟩ | ⟨between, rfl, inside⟩
  · cases between with
    | nil =>
        rw [List.nil_append] at inside
        exact absurd (List.cons.inj inside).1 differ
    | cons element between =>
        rw [List.cons_append] at inside
        rw [← (List.cons.inj inside).1, source_append, source_cons]
        apply Or.inl
        simp only [List.length_append]
        omega
  · cases between with
    | nil =>
        rw [List.nil_append] at inside
        exact absurd (List.cons.inj inside).1.symm differ
    | cons element between =>
        rw [List.cons_append] at inside
        rw [← (List.cons.inj inside).1, source_append, source_cons]
        apply Or.inr
        simp only [List.length_append]
        omega

end Elements

/-- What the elements of a text keep of it. -/
structure Keeps (line : List Char) (elements : List QueryTextElement) : Prop where
  source_eq : source elements = line
  /-- No two adjacent elements are both text. -/
  joined : ¬∃ before first second after,
    elements = before ++ .textPart first :: .textPart second :: after
  /-- Behind the name of a parameter there is no character of names. -/
  maximal : ∀ before name after, elements = before ++ .parameterName name :: after →
    name ≠ [] ∧ (∀ c ∈ name, isNameChar c = true) ∧
      ∀ c ∈ (source after).head?, isNameChar c = false
  /-- The colon of a parameter is no character of a cast or of an assignment. -/
  colons : ∃ tokens, Tokens line tokens ∧
    ∀ before name after, elements = before ++ .parameterName name :: after →
      ∀ others pair rest, tokens = others ++ .textPart pair :: rest →
        pair = [':', ':'] ∨ pair = [':', '='] →
          (source before).length < (source others).length ∨
            (source others).length + 2 ≤ (source before).length

theorem keeps_of_star {line : List Char} {elements : List QueryTextElement}
    (star : Star textElement line elements []) : Keeps line elements := by
  constructor
  · rw [eq_source_append_of_star star, List.append_nil]
  · rintro ⟨before, first, second, after, rfl⟩
    exact not_textPart_textPart star
  · rintro before name after rfl
    exact maximal_of_star star
  · rcases tokens_of_elements star with ⟨tokens, made, -⟩
    use tokens, made
    rintro before name after rfl others pair rest same isPair
    rcases made.parameter_of_star star with ⟨kept, later, rfl, place⟩
    have differ : QueryTextElement.parameterName name ≠ .textPart pair := nofun
    rcases source_apart differ same with ahead | behind
    · rw [place] at ahead
      apply Or.inl
      change _ + ([':'] ++ name).length ≤ _ at ahead
      rw [List.length_append, List.length_singleton] at ahead
      omega
    · rw [place] at behind
      apply Or.inr
      rcases isPair with rfl | rfl
      · exact behind
      · exact behind

/-- A text without NUL is accepted exactly when it belongs to the language, and
its elements keep all of it. -/
theorem text_lossless {line : List Char} (nulFree : NulFree line) :
    ((∃ elements, text.phraseParse isNul line = some elements) ↔ line ∈ textLanguage) ∧
      (∀ v : LineVisitor, (∃ next, v.parseText line = .ok next) ↔ line ∈ textLanguage) ∧
      ∀ elements, text.phraseParse isNul line = some elements → Keeps line elements := by
  have accepts : (∃ elements, text.phraseParse isNul line = some elements) ↔
      line ∈ textLanguage := by
    constructor
    · rintro ⟨elements, parsed⟩
      rw [phraseParse_text_eq_some_iff nulFree] at parsed
      rcases sameText_of_run_text parsed with ⟨tokens, made, -⟩
      exact made.mem_textLanguage
    · intro member
      rcases exists_tokens member nulFree with ⟨tokens, made⟩
      rcases made.run_text with ⟨elements, parsed, -⟩
      exact ⟨elements, (phraseParse_text_eq_some_iff nulFree).mpr parsed⟩
  constructor
  · exact accepts
  constructor
  · intro v
    rw [← accepts, LineVisitor.parseText]
    cases text.phraseParse isNul line with
    | none =>
        apply iff_of_false
        · rintro ⟨next, parsed⟩
          cases parsed
        · rintro ⟨elements, parsed⟩
          cases parsed
    | some elements => exact iff_of_true ⟨_, rfl⟩ ⟨_, rfl⟩
  · intro elements parsed
    rw [phraseParse_text_eq_some_iff nulFree] at parsed
    exact keeps_of_star (run_text_eq_some_iff.mp parsed).1

/-- A parameter with a cast: `:a::b`. -/
theorem text_lossless_cast :
    text.phraseParse isNul [':', 'a', ':', ':', 'b'] =
        some [.parameterName ['a'], .textPart [':', ':', 'b']] ∧
      Keeps [':', 'a', ':', ':', 'b'] [.parameterName ['a'], .textPart [':', ':', 'b']] := by
  have nulFree : NulFree [':', 'a', ':', ':', 'b'] := by decide
  have parsed : text.phraseParse isNul [':', 'a', ':', ':', 'b'] =
      some [.parameterName ['a'], .textPart [':', ':', 'b']] := rfl
  exact ⟨parsed, (text_lossless nulFree).2.2 _ parsed⟩

/-! ## Lines -/

/-- The characters of a line. -/
def QueryLine.value : QueryLine → List Char
  | .comment value | .text value => value

theorem value_queryLine (line : List Char) : (queryLine line).value = line := by
  unfold queryLine
  split
  · rfl
  · rfl

/-- A line ends with one end of line and has no character of another one. -/
def EndsOnce (line : List Char) : Prop :=
  ∃ body ending, line = body ++ ending ∧ ending ∈ lineEnds ∧ ∀ c ∈ body, inLine c = true

/-- Only the last line of a text may have no end. -/
theorem Lines.endsOnce {text : List Char} {lines : List (List Char)} (split : Lines text lines) :
    (∀ line ∈ lines.dropLast, EndsOnce line) ∧
      ∀ line ∈ lines.getLast?, EndsOnce line ∨ ∀ c ∈ line, inLine c = true := by
  induction split with
  | nil => exact ⟨nofun, nofun⟩
  | @last value some inside =>
      constructor
      · nofun
      · rintro line ⟨⟩
        exact .inr inside
  | @cons value ending rest lines inside follows _ ih =>
      have here : EndsOnce (value ++ ending) := ⟨value, ending, rfl, follows.1, inside⟩
      cases lines with
      | nil =>
          constructor
          · nofun
          · rintro line ⟨⟩
            exact .inl here
      | cons next lines =>
          constructor
          · rw [List.dropLast_cons_cons]
            exact List.forall_mem_cons.mpr ⟨here, ih.1⟩
          · rw [List.getLast?_cons_cons]
            exact ih.2

theorem isComment_iff (line : List Char) : isComment line = true ↔ ['-', '-'] <+: line :=
  List.isPrefixOf_iff_prefix

/-- Every text without NUL is split into lines that make it up again.  Every line
but the last ends once, and the comments are the lines that begin with dashes. -/
theorem parseQueryConfLines_lossless {text : List Char} (nulFree : NulFree text) :
    ∃ lines, parseQueryConfLines text = .ok lines ∧
      (lines.map QueryLine.value).flatten = text ∧
      (∀ line ∈ lines.dropLast, EndsOnce line.value) ∧
      (∀ line ∈ lines.getLast?, EndsOnce line.value ∨ ∀ c ∈ line.value, inLine c = true) ∧
      ∀ line ∈ lines, (∃ value, line = .comment value) ↔ ['-', '-'] <+: line.value := by
  obtain ⟨lines, split⟩ := exists_lines text
  have parsed : parseQueryConfLines text = .ok (lines.map queryLine) := by
    rw [parseQueryConfLines, phraseParse_eq _ nulFree, run_conf split]
    rfl
  have values : (lines.map queryLine).map QueryLine.value = lines := by
    rw [List.map_map]
    exact List.map_id'' value_queryLine lines
  use lines.map queryLine, parsed
  constructor
  · rw [values, split.flatten]
  constructor
  · intro line member
    rw [← List.map_dropLast] at member
    rcases List.mem_map.mp member with ⟨chars, known, rfl⟩
    rw [value_queryLine]
    exact split.endsOnce.1 chars known
  constructor
  · intro line isLast
    rw [List.getLast?_map] at isLast
    rcases Option.map_eq_some_iff.mp isLast with ⟨chars, known, rfl⟩
    rw [value_queryLine]
    exact split.endsOnce.2 chars known
  · intro line member
    rcases List.mem_map.mp member with ⟨chars, -, rfl⟩
    rw [value_queryLine, ← isComment_iff, queryLine]
    cases isComment chars with
    | true => exact iff_of_true ⟨chars, rfl⟩ rfl
    | false =>
        apply iff_of_false
        · rintro ⟨value, same⟩
          cases same
        · exact Bool.false_ne_true

/-- Lines with each of the ends, and one without. -/
theorem parseQueryConfLines_lossless_mixed :
    parseQueryConfLines ['-', '-', '\r', 'a', '\r', '\n', '\n', 'b'] =
        .ok [.comment ['-', '-', '\r'], .text ['a', '\r', '\n'], .text ['\n'], .text ['b']] ∧
      EndsOnce ['a', '\r', '\n'] := by
  have nulFree : NulFree ['-', '-', '\r', 'a', '\r', '\n', '\n', 'b'] := by decide
  have parsed : parseQueryConfLines ['-', '-', '\r', 'a', '\r', '\n', '\n', 'b'] =
      .ok [.comment ['-', '-', '\r'], .text ['a', '\r', '\n'], .text ['\n'], .text ['b']] := rfl
  obtain ⟨lines, same, -, ends, -⟩ := parseQueryConfLines_lossless nulFree
  rw [parsed] at same
  cases same
  exact ⟨parsed, ends (.text ['a', '\r', '\n']) (by decide)⟩

end Bozo.QueryConf
