import Bozo.Peg.Parser

/-!
# The grammars of a query configuration

A configuration is split into lines, which are comments or text.  A comment may
be the header of a query.  Text consists of parts that are kept as they are and
of the names of parameters.

A character stands for a byte; the grammars tell only ASCII characters apart.
-/

namespace Bozo.QueryConf

open Bozo.Peg
open Bozo.Peg.Parser

/-! ## Characters -/

/-- `std::isspace` in the classic locale. -/
def isSpace (c : Char) : Bool :=
  c == ' ' || c == '\t' || c == '\n' || c == '\x0b' || c == '\x0c' || c == '\r'

/-- The characters of a parameter name. -/
def isNameChar (c : Char) : Bool :=
  c == '_' || ('0' ≤ c && c ≤ '9') || ('A' ≤ c && c ≤ 'Z') || ('a' ≤ c && c ≤ 'z')

/-- The skipper of all grammars. -/
def isNul (c : Char) : Bool :=
  c == '\x00'

def anyChar : Parser Char Char :=
  tokenIf fun _ => true

/-- `x3::eol`. -/
def eol : Parser Char (List Char) :=
  literal ['\r', '\n'] <|> literal ['\r'] <|> literal ['\n']

/-- `char_ - eol`. -/
def lineChar : Parser Char Char :=
  butNot anyChar eol

/-! ## Lines -/

/-- `query_line`. -/
inductive QueryLine
  | comment (value : List Char)
  | text (value : List Char)
  deriving DecidableEq, Repr

/-- `lines_parser::end`. -/
def lineEnd : Parser Char (List Char) :=
  lexeme (literal ['\r', '\n'] <|> literal ['\r'] <|> literal ['\n'])

def commentLine : Parser Char (List Char) := do
  let dashes ← literal ['-', '-']
  let value ← many lineChar
  let ending ← lineEnd <|> (eoi >>= fun _ => pure [])
  return dashes ++ value ++ ending

def textLine : Parser Char (List Char) := do
  let value ← many lineChar
  let ending ← lineEnd
  return value ++ ending

def lastLine : Parser Char (List Char) := do
  let value ← lexeme (many1 lineChar)
  let _ ← eoi
  return value

/-- `lines_parser::line`. -/
def line : Parser Char QueryLine :=
  (QueryLine.comment <$> lexeme commentLine) <|> (QueryLine.text <$> lexeme textLine) <|>
    (QueryLine.text <$> lastLine)

/-- `lines_parser::conf`. -/
def conf : Parser Char (List QueryLine) := do
  let lines ← many line
  let _ ← eoi
  return lines

/-! ## Headers -/

/-- `header_parser::header`. -/
def header : Parser Char (List Char) := do
  let _ ← literal ['-', '-']
  let _ ← many (tokenIf isSpace)
  let _ ← literal ['n', 'a', 'm', 'e']
  let _ ← many (tokenIf isSpace)
  let _ ← literal [':']
  let _ ← many (tokenIf isSpace)
  let name ← lexeme (many1 lineChar)
  let _ ← optional eol
  let _ ← eoi
  return name

/-! ## Text -/

/-- `query_text_element`. -/
inductive QueryTextElement
  | textPart (value : List Char)
  | parameterName (value : List Char)
  deriving DecidableEq, Repr

/-- `char_ - char_(':') - char_('\0')`. -/
def plainChar : Parser Char Char :=
  butNot (butNot anyChar (tokenIf (· == ':'))) (tokenIf isNul)

def textPiece : Parser Char (List Char) :=
  literal [':', ':'] <|> literal [':', '='] <|> many1 plainChar

/-- `text_parser::text_part`. -/
def textPart : Parser Char (List Char) :=
  List.flatten <$> many1 (lexeme textPiece)

/-- `text_parser::parameter_name`. -/
def parameterName : Parser Char (List Char) := do
  let _ ← literal [':']
  lexeme (many1 (tokenIf isNameChar))

def textElement : Parser Char QueryTextElement :=
  (QueryTextElement.parameterName <$> parameterName) <|> (QueryTextElement.textPart <$> textPart)

/-- `text_parser::text`. -/
def text : Parser Char (List QueryTextElement) := do
  let elements ← many textElement
  let _ ← eoi
  return elements

/-! ## The ends of lines -/

/-- A character that belongs to no end of line. -/
def inLine (c : Char) : Bool :=
  c != '\r' && c != '\n'

/-- The ends of lines. -/
def lineEnds : List (List Char) :=
  [['\r', '\n'], ['\r'], ['\n']]

/-- What is behind an end of line.  A carriage return is one of its own only if
no line feed follows. -/
def Follows (ending rest : List Char) : Prop :=
  ending ∈ lineEnds ∧ (ending = ['\r'] → rest.head? ≠ some '\n')

theorem run_eol_eq_some_iff {input ending rest : List Char} :
    eol.run input = some (ending, rest) ↔ input = ending ++ rest ∧ Follows ending rest := by
  have runs : eol.run input = ((literal ['\r', '\n']).run input).or
      (((literal ['\r']).run input).or ((literal ['\n']).run input)) := rfl
  rw [runs]
  constructor
  · intro parsed
    rcases Option.or_eq_some_iff.mp parsed with both | ⟨notBoth, parsed⟩
    · rcases run_literal_eq_some_iff.mp both with ⟨rfl, same⟩
      exact ⟨same, by decide, nofun⟩
    · rcases Option.or_eq_some_iff.mp parsed with first | ⟨-, second⟩
      · rcases run_literal_eq_some_iff.mp first with ⟨rfl, rfl⟩
        refine ⟨rfl, by decide, fun _ feed => ?_⟩
        cases rest with
        | nil => cases feed
        | cons c rest =>
            cases feed
            have matched := run_literal_append ['\r', '\n'] rest
            rw [List.cons_append, List.nil_append] at notBoth
            exact Option.some_ne_none _ (matched.symm.trans notBoth)
      · rcases run_literal_eq_some_iff.mp second with ⟨rfl, same⟩
        exact ⟨same, by decide, nofun⟩
  · rintro ⟨rfl, known, alone⟩
    simp only [lineEnds, List.mem_cons, List.not_mem_nil, or_false] at known
    rcases known with rfl | rfl | rfl
    · rw [run_literal_append]
      rfl
    · have notBoth : (literal ['\r', '\n']).run (['\r'] ++ rest) = none := by
        cases rest with
        | nil => rfl
        | cons c rest =>
            have differs : '\n' ≠ c := fun same => alone rfl (congrArg some same.symm)
            rw [run_literal, if_neg]
            simp [List.isPrefixOf, differs]
      rw [notBoth, run_literal_append]
      rfl
    · have notFirst : (literal ['\r']).run (['\n'] ++ rest) = none := rfl
      have notBoth : (literal ['\r', '\n']).run (['\n'] ++ rest) = none := rfl
      rw [notBoth, notFirst, run_literal_append]
      rfl

theorem run_lineEnd (input : List Char) : lineEnd.run input = eol.run input :=
  run_lexeme _ input

/-- There is an end of line where a character does not belong to the line. -/
theorem exists_follows {c : Char} (rest : List Char) (outside : inLine c = false) :
    ∃ ending left, c :: rest = ending ++ left ∧ Follows ending left := by
  by_cases feed : c = '\n'
  · subst feed
    exact ⟨['\n'], rest, rfl, by decide, nofun⟩
  · have carriage : c = '\r' := by simpa [inLine, feed] using outside
    subst carriage
    cases rest with
    | nil => exact ⟨['\r'], [], rfl, by decide, fun _ => nofun⟩
    | cons next rest =>
        by_cases followed : next = '\n'
        · subst followed
          exact ⟨['\r', '\n'], rest, rfl, by decide, nofun⟩
        · refine ⟨['\r'], next :: rest, rfl, by decide, fun _ feed => followed ?_⟩
          exact Option.some.inj feed

theorem Follows.eq_cons {ending rest : List Char} (follows : Follows ending rest) :
    ∃ c others, ending = c :: others ∧ inLine c = false := by
  rcases follows with ⟨known, -⟩
  simp only [lineEnds, List.mem_cons, List.not_mem_nil, or_false] at known
  rcases known with rfl | rfl | rfl
  · exact ⟨'\r', ['\n'], rfl, rfl⟩
  · exact ⟨'\r', [], rfl, rfl⟩
  · exact ⟨'\n', [], rfl, rfl⟩

/-- Where a line ends, there is no character of the line. -/
theorem Follows.outside {ending rest : List Char} (follows : Follows ending rest)
    (tail : List Char) : ∀ c ∈ (ending ++ tail).head?, inLine c = false := by
  rcases follows.eq_cons with ⟨first, others, rfl, outside⟩
  rintro c ⟨⟩
  exact outside

theorem run_eol_of_inLine {input : List Char} (inside : ∀ c ∈ input.head?, inLine c = true) :
    eol.run input = none := by
  cases parsed : eol.run input with
  | none => rfl
  | some result =>
      rcases result with ⟨ending, rest⟩
      rcases run_eol_eq_some_iff.mp parsed with ⟨rfl, follows⟩
      rcases follows.eq_cons with ⟨c, others, rfl, outside⟩
      have belongs := inside c rfl
      rw [outside] at belongs
      cases belongs

theorem run_eol_of_not_inLine {c : Char} (rest : List Char) (outside : inLine c = false) :
    (eol.run (c :: rest)).isSome = true := by
  rcases exists_follows rest outside with ⟨ending, left, same, follows⟩
  rw [run_eol_eq_some_iff.mpr ⟨same, follows⟩]
  rfl

/-- `char_ - eol` tests a character. -/
theorem run_lineChar (input : List Char) : lineChar.run input = (tokenIf inLine).run input := by
  have runs : lineChar.run input =
      if (eol.run input).isSome then none else anyChar.run input := run_butNot _ _ _
  rw [runs]
  cases input with
  | nil => rfl
  | cons c rest =>
      rw [run_tokenIf_cons]
      cases belongs : inLine c with
      | true =>
          have inside : ∀ first ∈ (c :: rest).head?, inLine first = true := by
            rintro first ⟨⟩
            exact belongs
          rw [run_eol_of_inLine inside]
          rfl
      | false =>
          rw [run_eol_of_not_inLine rest belongs]
          rfl

theorem consumes_lineChar : lineChar.Consumes :=
  Consumes.butNot (consumes_tokenIf _) eol

/-- The characters up to the end of a line. -/
theorem run_many_lineChar_eq_some_iff {input value rest : List Char} :
    (many lineChar).run input = some (value, rest) ↔
      input = value ++ rest ∧ (∀ c ∈ value, inLine c = true) ∧
        ∀ c ∈ rest.head?, inLine c = false := by
  rw [run_many_congr run_lineChar]
  exact run_many_tokenIf_eq_some_iff

theorem run_many1_lineChar_eq_some_iff {input value rest : List Char} :
    (many1 lineChar).run input = some (value, rest) ↔
      value ≠ [] ∧ input = value ++ rest ∧ (∀ c ∈ value, inLine c = true) ∧
        ∀ c ∈ rest.head?, inLine c = false := by
  rw [run_many1_eq_some_iff consumes_lineChar, run_many_lineChar_eq_some_iff]

/-! ## The lines of a text -/

/-- The lines of a text, with their ends; the last one may have none. -/
inductive Lines : List Char → List (List Char) → Prop
  | nil : Lines [] []
  | last {value : List Char} : value ≠ [] → (∀ c ∈ value, inLine c = true) → Lines value [value]
  | cons {value ending rest : List Char} {lines : List (List Char)} :
      (∀ c ∈ value, inLine c = true) → Follows ending rest → Lines rest lines →
        Lines (value ++ ending ++ rest) ((value ++ ending) :: lines)

/-- Every text has lines. -/
theorem exists_lines (text : List Char) : ∃ lines, Lines text lines := by
  induction length : text.length using Nat.strongRecOn generalizing text with
  | _ length ih =>
      subst length
      have parsed : (many lineChar).run text = some (_, _) := rfl
      rcases run_many_lineChar_eq_some_iff.mp parsed with ⟨same, inside, outside⟩
      generalize (lineChar.repeatUpTo noSkip text.length text).1 = value at same inside
      generalize (lineChar.repeatUpTo noSkip text.length text).2 = rest at same outside
      subst same
      cases rest with
      | nil =>
          rw [List.append_nil]
          cases value with
          | nil => exact ⟨[], .nil⟩
          | cons c value => exact ⟨_, .last (List.cons_ne_nil c value) inside⟩
      | cons c rest =>
          rcases exists_follows rest (outside c rfl) with ⟨ending, left, behind, follows⟩
          rcases follows.eq_cons with ⟨first, others, rfl, -⟩
          have shorter : left.length < (value ++ c :: rest).length := by
            rw [behind, List.length_append, List.length_append, List.length_cons]
            omega
          rcases ih _ shorter left rfl with ⟨lines, remaining⟩
          rw [behind, ← List.append_assoc]
          exact ⟨_, .cons inside follows remaining⟩

/-- A line is a comment if it begins with two dashes. -/
def isComment (line : List Char) : Bool :=
  ['-', '-'].isPrefixOf line

/-- A line as it is classified. -/
def queryLine (line : List Char) : QueryLine :=
  if isComment line then .comment line else .text line

/-- Nothing but characters of the line can be a dash. -/
theorem isComment_append {value tail : List Char}
    (outside : ∀ c ∈ tail.head?, inLine c = false) : isComment (value ++ tail) = isComment value := by
  have stops : ∀ c ∈ tail.head?, '-' ≠ c := by
    rintro c isFirst rfl
    cases outside '-' isFirst
  match value, tail with
  | [], [] => rfl
  | [], c :: tail => simp [isComment, List.isPrefixOf, stops c rfl]
  | [first], [] => rfl
  | [first], c :: tail => simp [isComment, List.isPrefixOf, stops c rfl]
  | first :: second :: value, tail => rfl

theorem run_line_of_comment {input rest value : List Char}
    (parsed : commentLine.run input = some (value, rest)) :
    line.run input = some (.comment value, rest) := by
  have first : (QueryLine.comment <$> lexeme commentLine).run input = some (.comment value, rest) :=
    run_map_eq_some_iff.mpr ⟨value, (run_lexeme _ _).trans parsed, rfl⟩
  have runs := run_orElse (QueryLine.comment <$> lexeme commentLine)
    ((QueryLine.text <$> lexeme textLine) <|> (QueryLine.text <$> lastLine)) input
  rw [first] at runs
  exact runs

theorem run_line_of_not_comment {input : List Char} (text : isComment input = false) :
    line.run input = ((QueryLine.text <$> lexeme textLine) <|> (QueryLine.text <$> lastLine)).run
      input := by
  have failed : (QueryLine.comment <$> lexeme commentLine).run input = none := by
    have dashes : (literal ['-', '-']).run input = none := by
      rw [run_literal, if_neg]
      exact Bool.eq_false_iff.mp text
    have comment : (lexeme commentLine).run input = none := by
      rw [run_lexeme]
      exact run_bind_of_none dashes
    exact run_bind_of_none comment
  have runs := run_orElse (QueryLine.comment <$> lexeme commentLine)
    ((QueryLine.text <$> lexeme textLine) <|> (QueryLine.text <$> lastLine)) input
  rw [failed] at runs
  exact runs

/-- The end of a comment: an end of line, or the end of the text. -/
theorem run_commentLine {value tail ending rest : List Char}
    (inside : ∀ c ∈ value, inLine c = true) (comment : isComment value = true)
    (outside : ∀ c ∈ tail.head?, inLine c = false)
    (ends : (lineEnd <|> (eoi >>= fun _ => pure [])).run tail = some (ending, rest)) :
    commentLine.run (value ++ tail) = some (value ++ ending, rest) := by
  rcases List.isPrefixOf_iff_prefix.mp comment with ⟨left, rfl⟩
  have rest_inside : ∀ c ∈ left, inLine c = true := fun c member =>
    inside c (List.mem_append_right _ member)
  unfold commentLine
  rw [List.append_assoc]
  refine run_bind_eq_some_iff.mpr ⟨_, _, run_literal_append _ _, ?_⟩
  refine run_bind_eq_some_iff.mpr ⟨left, tail, ?_, ?_⟩
  · exact run_many_lineChar_eq_some_iff.mpr ⟨rfl, rest_inside, outside⟩
  · exact run_bind_eq_some_iff.mpr ⟨ending, rest, ends, rfl⟩

theorem run_line_cons {value ending rest : List Char} (inside : ∀ c ∈ value, inLine c = true)
    (follows : Follows ending rest) :
    line.run (value ++ ending ++ rest) = some (queryLine (value ++ ending), rest) := by
  have parsed := run_eol_eq_some_iff.mpr ⟨rfl, follows⟩
  have outside := follows.outside rest
  have alone := follows.outside []
  rw [List.append_nil] at alone
  rw [List.append_assoc, queryLine, isComment_append alone]
  cases comment : isComment value with
  | true =>
      apply run_line_of_comment
      apply run_commentLine inside comment outside
      rw [run_orElse, run_lineEnd, parsed]
      rfl
  | false =>
      rw [run_line_of_not_comment (by rw [isComment_append outside, comment])]
      have text : textLine.run (value ++ (ending ++ rest)) = some (value ++ ending, rest) := by
        refine run_bind_eq_some_iff.mpr ⟨value, ending ++ rest, ?_, ?_⟩
        · exact run_many_lineChar_eq_some_iff.mpr ⟨rfl, inside, outside⟩
        · exact run_bind_eq_some_iff.mpr ⟨ending, rest, (run_lineEnd _).trans parsed, rfl⟩
      have mapped : (QueryLine.text <$> lexeme textLine).run (value ++ (ending ++ rest)) =
          some (.text (value ++ ending), rest) :=
        run_map_eq_some_iff.mpr ⟨_, (run_lexeme _ _).trans text, rfl⟩
      rw [run_orElse, mapped]
      rfl

theorem run_line_last {value : List Char} (some : value ≠ []) (inside : ∀ c ∈ value, inLine c = true) :
    line.run value = .some (queryLine value, []) := by
  have whole : value ++ [] = value := List.append_nil value
  rw [queryLine]
  cases comment : isComment value with
  | true =>
      apply run_line_of_comment
      have parsed : commentLine.run (value ++ []) = .some (value ++ [], []) :=
        run_commentLine inside comment nofun rfl
      rw [whole] at parsed
      exact parsed
  | false =>
      rw [run_line_of_not_comment comment]
      have text : (lexeme textLine).run value = none := by
        rw [run_lexeme]
        have all : (many lineChar).run value = .some (value, []) :=
          run_many_lineChar_eq_some_iff.mpr ⟨whole.symm, inside, nofun⟩
        exact (run_bind_of_some all).trans (run_bind_of_none rfl)
      have mapped : (QueryLine.text <$> lexeme textLine).run value = none := run_bind_of_none text
      have last : lastLine.run value = .some (value, []) := by
        refine run_bind_eq_some_iff.mpr ⟨value, [], ?_, rfl⟩
        rw [run_lexeme]
        exact run_many1_lineChar_eq_some_iff.mpr ⟨some, whole.symm, inside, nofun⟩
      rw [run_orElse, mapped, Option.none_or]
      exact run_map_eq_some_iff.mpr ⟨value, last, rfl⟩

theorem consumes_eol : eol.Consumes :=
  Consumes.orElse (consumes_literal (by decide))
    (Consumes.orElse (consumes_literal (by decide)) (consumes_literal (by decide)))

theorem consumes_line : line.Consumes := by
  apply Consumes.orElse
  · exact Consumes.map (Consumes.lexeme (Consumes.bind (consumes_literal (by decide)) _)) _
  · apply Consumes.orElse
    · apply Consumes.map
      apply Consumes.lexeme
      exact consumes_bind_of_next _ fun value => Consumes.bind (Consumes.lexeme consumes_eol) _
    · exact Consumes.map (Consumes.bind (Consumes.lexeme (Consumes.many1 consumes_lineChar)) _) _

/-- A text is split into its lines. -/
theorem run_conf {text : List Char} {lines : List (List Char)} (split : Lines text lines) :
    conf.run text = some (lines.map queryLine, []) := by
  have star : Star line text (lines.map queryLine) [] := by
    induction split with
    | nil => exact .nil
    | last some inside => exact .cons (run_line_last some inside) .nil
    | cons inside follows _ star => exact .cons (run_line_cons inside follows) star
  have all := (run_many_eq_some_iff consumes_line).mpr ⟨star, consumes_line.run_nil⟩
  exact run_bind_eq_some_iff.mpr ⟨_, [], all, rfl⟩

/-- The lines make up the text. -/
theorem Lines.flatten {text : List Char} {lines : List (List Char)} (split : Lines text lines) :
    lines.flatten = text := by
  induction split with
  | nil => rfl
  | last some inside => exact List.append_nil _
  | cons inside follows _ ih => rw [List.flatten_cons, ih]

/-! ## The header of a query -/

/-- A line is the header of a query of the given name.  The spaces behind the
colon do not belong to the name. -/
def IsHeader (line name : List Char) : Prop :=
  ∃ before between behind ending : List Char,
    line = ['-', '-'] ++ before ++ ['n', 'a', 'm', 'e'] ++ between ++ [':'] ++ behind ++ name ++
        ending ∧
      (∀ c ∈ before ++ between ++ behind, isSpace c = true) ∧
      name ≠ [] ∧ (∀ c ∈ name, inLine c = true) ∧ (∀ c ∈ name.head?, isSpace c = false) ∧
      (ending = [] ∨ ending ∈ lineEnds)

theorem follows_nil {ending : List Char} (known : ending ∈ lineEnds) : Follows ending [] :=
  ⟨known, fun _ => nofun⟩

/-- The rest of a header behind its name. -/
theorem run_headerEnd_eq_some_iff {name value input rest : List Char} :
    (do let _ ← optional eol; let _ ← eoi; return name : Parser Char (List Char)).run input =
        some (value, rest) ↔
      value = name ∧ rest = [] ∧ (input = [] ∨ input ∈ lineEnds) := by
  rw [run_bind_eq_some_iff]
  constructor
  · rintro ⟨_, left, ended, others⟩
    rcases run_bind_eq_some_iff.mp others with ⟨_, last, isEmpty, same⟩
    rcases run_eoi_eq_some_iff.mp isEmpty with ⟨rfl, rfl⟩
    cases same
    rcases run_optional_eq_some_iff.mp ended with ⟨ending, parsed, -⟩ | ⟨-, -, rfl⟩
    · rcases run_eol_eq_some_iff.mp parsed with ⟨rfl, known, -⟩
      rw [List.append_nil]
      exact ⟨rfl, rfl, .inr known⟩
    · exact ⟨rfl, rfl, .inl rfl⟩
  · rintro ⟨rfl, rfl, rfl | known⟩
    · exact ⟨none, [], rfl, rfl⟩
    · have parsed : eol.run input = some (input, []) :=
        run_eol_eq_some_iff.mpr ⟨(List.append_nil input).symm, follows_nil known⟩
      exact ⟨some input, [], run_optional_eq_some_iff.mpr (.inl ⟨input, parsed, rfl⟩), rfl⟩

/-- The name of a header, behind spaces. -/
theorem run_headerName_eq_some_iff {name input rest : List Char} :
    (do let _ ← many (tokenIf isSpace); let name ← lexeme (many1 lineChar); let _ ← optional eol;
        let _ ← eoi; return name : Parser Char (List Char)).run input = some (name, rest) ↔
      ∃ spaces ending, input = spaces ++ name ++ ending ∧ (∀ c ∈ spaces, isSpace c = true) ∧
        name ≠ [] ∧ (∀ c ∈ name, inLine c = true) ∧ (∀ c ∈ name.head?, isSpace c = false) ∧
        (ending = [] ∨ ending ∈ lineEnds) ∧ rest = [] := by
  constructor
  · intro parsed
    rcases run_bind_eq_some_iff.mp parsed with ⟨spaces, _, skipped, parsed⟩
    rcases run_bind_eq_some_iff.mp parsed with ⟨found, ending, named, parsed⟩
    rcases run_headerEnd_eq_some_iff.mp parsed with ⟨rfl, rfl, ends⟩
    rcases run_many_tokenIf_eq_some_iff.mp skipped with ⟨rfl, inSpaces, begins⟩
    rw [run_lexeme] at named
    rcases run_many1_lineChar_eq_some_iff.mp named with ⟨nonempty, rfl, inside, -⟩
    refine ⟨spaces, ending, ?_, inSpaces, nonempty, inside, ?_, ends, rfl⟩
    · rw [List.append_assoc]
    · intro c isFirst
      apply begins c
      rw [List.head?_append, Option.mem_def.mp isFirst]
      rfl
  · rintro ⟨spaces, ending, rfl, inSpaces, nonempty, inside, begins, ends, rfl⟩
    have starts : ∀ c ∈ (name ++ ending).head?, isSpace c = false := by
      cases name with
      | nil => exact absurd rfl nonempty
      | cons first others => exact begins
    have outside : ∀ c ∈ ending.head?, inLine c = false := by
      rcases ends with rfl | known
      · nofun
      · have outside := (follows_nil known).outside []
        rw [List.append_nil] at outside
        exact outside
    rw [List.append_assoc]
    refine run_bind_eq_some_iff.mpr ⟨_, _, run_many_tokenIf_append inSpaces starts, ?_⟩
    refine run_bind_eq_some_iff.mpr ⟨name, ending, ?_, ?_⟩
    · rw [run_lexeme]
      exact run_many1_lineChar_eq_some_iff.mpr ⟨nonempty, rfl, inside, outside⟩
    · exact run_headerEnd_eq_some_iff.mpr ⟨rfl, rfl, ends⟩

/-- A word of a header, behind spaces. -/
theorem run_spaced_eq_some_iff {α : Type} (c : Char) (word : List Char) {input rest : List Char}
    {next : Parser Char α} {value : α} (noSpace : isSpace c = false) :
    (do let _ ← many (tokenIf isSpace); let _ ← literal (c :: word); next : Parser Char α).run
        input = some (value, rest) ↔
      ∃ spaces left, input = spaces ++ (c :: word) ++ left ∧ (∀ c ∈ spaces, isSpace c = true) ∧
        next.run left = some (value, rest) := by
  constructor
  · intro parsed
    rcases run_bind_eq_some_iff.mp parsed with ⟨spaces, _, skipped, others⟩
    rcases run_bind_eq_some_iff.mp others with ⟨_, left, matched, behind⟩
    rcases run_many_tokenIf_eq_some_iff.mp skipped with ⟨rfl, inSpaces, -⟩
    rcases run_literal_eq_some_iff.mp matched with ⟨-, rfl⟩
    exact ⟨spaces, left, (List.append_assoc ..).symm, inSpaces, behind⟩
  · rintro ⟨spaces, left, rfl, inSpaces, parsed⟩
    rw [List.append_assoc]
    refine run_bind_eq_some_iff.mpr ⟨_, _, run_many_tokenIf_append inSpaces ?_, ?_⟩
    · rintro _ ⟨⟩
      exact noSpace
    · exact run_bind_eq_some_iff.mpr ⟨_, _, run_literal_append _ _, parsed⟩

theorem run_header_eq_some_iff {line name rest : List Char} :
    header.run line = some (name, rest) ↔ IsHeader line name ∧ rest = [] := by
  unfold header IsHeader
  rw [run_bind_eq_some_iff]
  constructor
  · rintro ⟨_, _, dashes, parsed⟩
    rcases run_literal_eq_some_iff.mp dashes with ⟨rfl, rfl⟩
    rcases (run_spaced_eq_some_iff 'n' ['a', 'm', 'e'] rfl).mp parsed with
      ⟨before, _, rfl, inBefore, others⟩
    rcases (run_spaced_eq_some_iff ':' [] rfl).mp others with ⟨between, _, rfl, inBetween, last⟩
    rcases run_headerName_eq_some_iff.mp last with
      ⟨behind, ending, rfl, inBehind, nonempty, inside, begins, ends, rfl⟩
    refine ⟨⟨before, between, behind, ending, ?_, ?_, nonempty, inside, begins, ends⟩, rfl⟩
    · simp only [List.append_assoc]
    · rw [List.forall_mem_append, List.forall_mem_append]
      exact ⟨⟨inBefore, inBetween⟩, inBehind⟩
  · rintro ⟨⟨before, between, behind, ending, rfl, spaces, nonempty, inside, begins, ends⟩, rfl⟩
    rw [List.forall_mem_append, List.forall_mem_append] at spaces
    rcases spaces with ⟨⟨inBefore, inBetween⟩, inBehind⟩
    have named := run_headerName_eq_some_iff.mpr
      ⟨behind, ending, rfl, inBehind, nonempty, inside, begins, ends, rfl⟩
    have colon := (run_spaced_eq_some_iff ':' [] rfl).mpr ⟨between, _, rfl, inBetween, named⟩
    have keyword := (run_spaced_eq_some_iff 'n' ['a', 'm', 'e'] rfl).mpr
      ⟨before, _, rfl, inBefore, colon⟩
    refine ⟨['-', '-'], _, ?_, keyword⟩
    simp only [List.append_assoc]
    exact run_literal_append _ _

end Bozo.QueryConf
