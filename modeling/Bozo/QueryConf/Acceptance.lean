import Bozo.QueryConf.Layout
import Mathlib.Data.List.TakeWhile

/-!
# Which configurations are accepted

A repository is made exactly of a configuration that is laid out, named and
parametrised as its queries are.  The names of the queries count as they are
passed, so that a name with a NUL character is taken for a shorter one.
-/

namespace Bozo.QueryConf

/-! ## The texts of errors -/

theorem cString_of_nulFree {chars : List Char} (nulFree : NulFree chars) :
    cString chars = chars := by
  apply List.takeWhile_eq_self_iff.mpr
  intro c member
  rw [nulFree c member]
  rfl

/-- The names that an error is about. -/
def ConfError.names : ConfError → List (List Char)
  | .duplicateDeclaration rawName | .notDefined rawName => [rawName]
  | .linesNotParsed | .expectedComment => []
  | .textNotParsed name | .duplicateDefinition name | .notDeclared name => [name]
  | .parameterNotFound rawName name | .notNumeric rawName name => [rawName, name]
  | .greaterThanMaximum name _ => [name]

/-- A name in a text that is passed as a `const char*`. -/
theorem infix_cString {before name behind : List Char} (beforeFree : NulFree before)
    (nameFree : NulFree name) (behindFree : NulFree behind) (rest : List Char) :
    name <:+: cString (before ++ name ++ behind) ++ rest := by
  have all : NulFree (before ++ name ++ behind) :=
    List.forall_mem_append.mpr ⟨List.forall_mem_append.mpr ⟨beforeFree, nameFree⟩, behindFree⟩
  rw [cString_of_nulFree all]
  exact ⟨before, behind ++ rest, by simp only [List.append_assoc]⟩

/-- The text of an error tells the names it is about. -/
theorem ConfError.infix_what {e : ConfError} (nulFree : ∀ name ∈ e.names, NulFree name) :
    ∀ name ∈ e.names, name <:+: e.what := by
  have atEnd : ∀ {before name : List Char}, NulFree before → NulFree name →
      name <:+: cString (before ++ name) := by
    intro before name beforeFree nameFree
    have found := infix_cString beforeFree nameFree (nulFree_iff.mp (rfl : [].all _ = true)) []
    rw [List.append_nil, List.append_nil] at found
    exact found
  cases e with
  | duplicateDeclaration rawName | notDefined rawName | textNotParsed rawName
  | duplicateDefinition rawName | notDeclared rawName =>
      rw [names, List.forall_mem_singleton] at nulFree ⊢
      exact atEnd (nulFree_iff.mp rfl) nulFree
  | linesNotParsed | expectedComment => nofun
  | parameterNotFound rawName name | notNumeric rawName name =>
      rw [names, List.forall_mem_cons, List.forall_mem_singleton] at nulFree ⊢
      constructor
      · change rawName <:+: cString (_ ++ rawName ++ _) ++ name
        apply infix_cString
        · decide
        · exact nulFree.1
        · decide
      · exact List.infix_append_right
  | greaterThanMaximum name size =>
      rw [names, List.forall_mem_singleton]
      apply List.infix_append_of_infix_left
      apply List.infix_append_of_infix_left
      apply List.infix_append_of_infix_left
      exact List.infix_append_right

/-! ## The text of a block -/

namespace SameText

variable {elements tokens : List QueryTextElement}

theorem append {otherElements otherTokens : List QueryTextElement}
    (first : SameText elements tokens) (second : SameText otherElements otherTokens) :
    SameText (elements ++ otherElements) (tokens ++ otherTokens) := by
  constructor
  · intro replace
    rw [List.flatMap_append, List.flatMap_append, first.render_eq, second.render_eq]
  · rw [List.filterMap_append, List.filterMap_append, first.parameters_eq, second.parameters_eq]

theorem knows_iff (same : SameText elements tokens) (q : Query) :
    q.Knows elements ↔ q.Knows tokens := by
  rw [Query.Knows, Query.Knows, same.parameters_eq]

end SameText

namespace BodyText

variable {body : List (List Char)} {elements tokens : List QueryTextElement}

/-- Lines have a text exactly if every text line has one. -/
theorem exists_iff {lineText : List Char → List QueryTextElement → Prop} :
    (∃ elements, BodyText lineText body elements) ↔
      ∀ line ∈ body, isComment line = false → ∃ elements, lineText line elements := by
  induction body with
  | nil => exact iff_of_true ⟨[], .nil⟩ nofun
  | cons line body ih =>
      rw [List.forall_mem_cons, ← ih]
      constructor
      · rintro ⟨_, all⟩
        cases all with
        | comment comment behind =>
            refine ⟨?_, _, behind⟩
            intro isText
            cases comment.symm.trans isText
        | text isText parsed behind => exact ⟨fun _ => ⟨_, parsed⟩, _, behind⟩
      · rintro ⟨here, elements, behind⟩
        cases comment : isComment line with
        | true => exact ⟨elements, .comment comment behind⟩
        | false =>
            rcases here comment with ⟨first, parsed⟩
            exact ⟨first ++ elements, .text comment parsed behind⟩

theorem unique {others : List QueryTextElement} (first : BodyText Tokens body tokens)
    (second : BodyText Tokens body others) : tokens = others := by
  induction first generalizing others with
  | nil =>
      cases second
      rfl
  | comment comment _ ih =>
      cases second with
      | comment _ behind => exact ih behind
      | text isText => cases comment.symm.trans isText
  | text isText made _ ih =>
      cases second with
      | comment comment => cases comment.symm.trans isText
      | text _ also behind => rw [made.unique also, ih behind]

/-- What is parsed from lines says the same as their tokens. -/
theorem exists_tokens (parsed : BodyText LineText body elements) :
    ∃ tokens, BodyText Tokens body tokens ∧ SameText elements tokens := by
  induction parsed with
  | nil => exact ⟨[], .nil, .refl []⟩
  | comment comment _ ih =>
      rcases ih with ⟨tokens, behind, same⟩
      exact ⟨tokens, .comment comment behind, same⟩
  | text isText here _ ih =>
      rcases ih with ⟨tokens, behind, same⟩
      rcases sameText_of_run_text here with ⟨first, made, sameFirst⟩
      exact ⟨first ++ tokens, .text isText made behind, sameFirst.append same⟩

end BodyText

/-- A line has tokens exactly if it is parsed. -/
theorem exists_lineText_iff {line : List Char} :
    (∃ elements, LineText line elements) ↔ ∃ tokens, Tokens line tokens := by
  constructor
  · rintro ⟨elements, parsed⟩
    rcases sameText_of_run_text parsed with ⟨tokens, made, -⟩
    exact ⟨tokens, made⟩
  · rintro ⟨tokens, made⟩
    rcases made.run_text with ⟨elements, parsed, -⟩
    exact ⟨elements, parsed⟩

/-! ## Acceptable configurations -/

/-- What is asked of a configuration and of queries that are looked up by given
names. -/
structure Acceptable (nameOf : Query → List Char) (layout : Layout) (queries : List Query) :
    Prop where
  before : ∀ line ∈ layout.before, isComment line = true
  texts : ∀ block ∈ layout.blocks, ∀ line ∈ block.body, isComment line = false →
    ∃ tokens, Tokens line tokens
  declared : (queries.map Query.rawName).Nodup
  configured : (layout.blocks.map Block.name).Nodup
  names : ∀ name, name ∈ queries.map nameOf ↔ name ∈ layout.blocks.map Block.name
  parameters : ∀ query ∈ queries, ∀ block ∈ layout.blocks, block.name = nameOf query →
    ∀ tokens, BodyText Tokens block.body tokens → query.Knows tokens

/-- The stored text of every query is that of the block of its name, with the
parameters replaced. -/
def StoresTexts (repository : Repository) (layout : Layout) (queries : List Query) : Prop :=
  ∀ query ∈ queries, ∃ block ∈ layout.blocks, block.name = query.rawName ∧
    ∃ tokens, BodyText Tokens block.body tokens ∧
      repository.getDescription query =
        some (trim (tokens.flatMap (·.render query.replacement)))

/-! ## What the code accepts -/

/-- A block that is parsed and described. -/
def Block.Described (queries : List Query) (block : Block) (description : QueryDescription) :
    Prop :=
  ∃ parsed, block.ParsedAs parsed ∧ makeQueryDescription queries parsed = .ok description

theorem Block.exists_described_iff {queries : List Query} {block : Block} :
    (∃ description, block.Described queries description) ↔
      (∀ line ∈ block.body, isComment line = false → ∃ tokens, Tokens line tokens) ∧
        block.name ∈ queries.map getQueryName ∧
        ∀ query ∈ queries, block.name = getQueryName query →
          ∀ tokens, BodyText Tokens block.body tokens → query.Knows tokens := by
  constructor
  · rintro ⟨description, ⟨name, elements⟩, ⟨rfl, parsed⟩, described⟩
    rcases makeQueryDescription_eq_ok_iff.mp described with ⟨known, last, isLast, -⟩
    rcases mem_queriesNamed.mp (List.mem_of_getLast? isLast) with ⟨member, named⟩
    refine ⟨?_, List.mem_map.mpr ⟨last, member, named⟩, ?_⟩
    · intro line inBody isText
      exact exists_lineText_iff.mp (BodyText.exists_iff.mp ⟨elements, parsed⟩ line inBody isText)
    · intro query queryMember sameName tokens made
      rcases parsed.exists_tokens with ⟨others, also, same⟩
      cases made.unique also
      exact (same.knows_iff query).mp
        (known query (mem_queriesNamed.mpr ⟨queryMember, sameName.symm⟩))
  · rintro ⟨texts, declared, parameters⟩
    rcases BodyText.exists_iff.mpr fun line inBody isText =>
      exists_lineText_iff.mpr (texts line inBody isText) with ⟨elements, parsed⟩
    rcases parsed.exists_tokens with ⟨tokens, made, same⟩
    rcases List.mem_map.mp declared with ⟨query, member, named⟩
    have nonempty : queriesNamed queries block.name ≠ [] :=
      List.ne_nil_of_mem (mem_queriesNamed.mpr ⟨member, named⟩)
    refine ⟨_, ⟨block.name, elements⟩, ⟨rfl, parsed⟩, makeQueryDescription_eq_ok_iff.mpr
      ⟨?_, _, List.getLast?_eq_some_getLast nonempty, rfl⟩⟩
    intro other otherMember
    rcases mem_queriesNamed.mp otherMember with ⟨inQueries, otherNamed⟩
    exact (same.knows_iff other).mpr (parameters other inQueries otherNamed.symm tokens made)

/-- Two steps for every member of a list. -/
theorem exists_forall₂_forall₂_iff {α β γ : Type} {first : α → β → Prop} {second : β → γ → Prop}
    {inputs : List α} :
    (∃ middles outputs, List.Forall₂ first inputs middles ∧ List.Forall₂ second middles outputs) ↔
      ∀ input ∈ inputs, ∃ output middle, first input middle ∧ second middle output := by
  induction inputs with
  | nil => exact iff_of_true ⟨[], [], .nil, .nil⟩ nofun
  | cons input inputs ih =>
      rw [List.forall_mem_cons, ← ih]
      constructor
      · rintro ⟨_, _, firsts, seconds⟩
        cases firsts with
        | cons here behind =>
            cases seconds with
            | cons next others => exact ⟨⟨_, _, here, next⟩, _, _, behind, others⟩
      · rintro ⟨⟨output, middle, here, next⟩, middles, outputs, behind, others⟩
        exact ⟨middle :: middles, output :: outputs, .cons here behind, .cons next others⟩

theorem names_of_parsedAs {blocks : List Block} {parsed : List ParsedQuery}
    (all : List.Forall₂ Block.ParsedAs blocks parsed) :
    parsed.map ParsedQuery.name = blocks.map Block.name := by
  induction all with
  | nil => rfl
  | cons first _ ih => rw [List.map_cons, List.map_cons, first.name, ih]

theorem exists_block_of_parsed {blocks : List Block} {parsed : List ParsedQuery}
    (all : List.Forall₂ Block.ParsedAs blocks parsed) {query : ParsedQuery}
    (member : query ∈ parsed) : ∃ block ∈ blocks, block.ParsedAs query := by
  induction all with
  | nil => cases member
  | cons first _ ih =>
      rcases List.mem_cons.mp member with rfl | behind
      · exact ⟨_, List.mem_cons_self .., first⟩
      · rcases ih behind with ⟨block, inBlocks, parsedAs⟩
        exact ⟨block, List.mem_cons_of_mem _ inBlocks, parsedAs⟩

section Repository

variable {text : List Char} {queries : List Query} {layout : Layout} {repository : Repository}

/-- A repository is made exactly if every check passes. -/
theorem makeQueryRepository_eq_ok_iff :
    makeQueryRepository text queries = .ok repository ↔
      (queries.map Query.rawName).Nodup ∧ ∃ parsed, parseQueryConf text = .ok parsed ∧
        (parsed.map ParsedQuery.name).Nodup ∧
        (∀ query ∈ queries, getQueryName query ∈ parsed.map ParsedQuery.name) ∧
        List.Forall₂ (fun query description => makeQueryDescription queries query = .ok description)
          parsed repository.descriptions := by
  rw [makeQueryRepository, bind_eq_ok_iff]
  constructor
  · rintro ⟨_, declared, succeeds⟩
    rcases bind_eq_ok_iff.mp succeeds with ⟨parsed, found, succeeds⟩
    rcases bind_eq_ok_iff.mp succeeds with ⟨_, configured, succeeds⟩
    rcases bind_eq_ok_iff.mp succeeds with ⟨_, defined, succeeds⟩
    rcases map_eq_ok_iff.mp succeeds with ⟨descriptions, described, rfl⟩
    rcases checkForDuplicateDefinitions_eq_ok_iff.mp configured with ⟨distinct, rfl⟩
    exact ⟨(checkForDuplicateDeclarations_eq_ok_iff.mp declared).1, parsed, found, distinct,
      checkForUndefined_eq_ok_iff.mp defined, makeQueryDescriptions_eq_ok_iff.mp described⟩
  · rintro ⟨declared, parsed, found, distinct, defined, described⟩
    refine ⟨_, checkForDuplicateDeclarations_eq_ok_iff.mpr ⟨declared, rfl⟩, ?_⟩
    refine bind_eq_ok_iff.mpr ⟨parsed, found, ?_⟩
    refine bind_eq_ok_iff.mpr
      ⟨_, checkForDuplicateDefinitions_eq_ok_iff.mpr ⟨distinct, rfl⟩, ?_⟩
    refine bind_eq_ok_iff.mpr ⟨(), checkForUndefined_eq_ok_iff.mpr defined, ?_⟩
    exact map_eq_ok_iff.mpr ⟨_, makeQueryDescriptions_eq_ok_iff.mpr described, rfl⟩

/-- The code accepts what is acceptable for the names as they are passed. -/
theorem Layout.Of.exists_repository_iff (isOf : layout.Of text) (nulFree : NulFree text) :
    (∃ repository, makeQueryRepository text queries = .ok repository) ↔
      Acceptable getQueryName layout queries := by
  constructor
  · rintro ⟨repository, made⟩
    rcases makeQueryRepository_eq_ok_iff.mp made with
      ⟨declared, parsed, found, configured, defined, described⟩
    rcases (isOf.parseQueryConf_eq_ok_iff nulFree).mp found with ⟨comments, parsedAs⟩
    rw [names_of_parsedAs parsedAs] at configured defined
    have blocks : ∀ block ∈ layout.blocks, _ := fun block member =>
      Block.exists_described_iff.mp
        (exists_forall₂_forall₂_iff.mp ⟨parsed, _, parsedAs, described⟩ block member)
    constructor
    · exact comments
    · exact fun block member => (blocks block member).1
    · exact declared
    · exact configured
    · intro name
      constructor
      · intro inQueries
        rcases List.mem_map.mp inQueries with ⟨query, member, rfl⟩
        exact defined query member
      · intro inBlocks
        rcases List.mem_map.mp inBlocks with ⟨block, member, rfl⟩
        exact (blocks block member).2.1
    · exact fun query member block inBlocks => (blocks block inBlocks).2.2 query member
  · intro acceptable
    have blocks : ∀ block ∈ layout.blocks, ∃ description, block.Described queries description := by
      intro block member
      apply Block.exists_described_iff.mpr
      refine ⟨acceptable.texts block member, ?_, fun query inQueries =>
        acceptable.parameters query inQueries block member⟩
      exact (acceptable.names block.name).mpr (List.mem_map_of_mem member)
    rcases exists_forall₂_forall₂_iff.mpr blocks with
      ⟨parsed, descriptions, parsedAs, described⟩
    refine ⟨⟨descriptions⟩, makeQueryRepository_eq_ok_iff.mpr
      ⟨acceptable.declared, parsed, ?_, ?_, ?_, described⟩⟩
    · exact (isOf.parseQueryConf_eq_ok_iff nulFree).mpr ⟨acceptable.before, parsedAs⟩
    · rw [names_of_parsedAs parsedAs]
      exact acceptable.configured
    · intro query member
      rw [names_of_parsedAs parsedAs]
      exact (acceptable.names _).mp (List.mem_map_of_mem member)

/-! ## The names of queries -/

theorem getQueryName_of_nulFree {query : Query} (nulFree : NulFree query.rawName) :
    getQueryName query = query.rawName :=
  cString_of_nulFree nulFree

/-- The names in the headers are characters of the text. -/
theorem Layout.Of.nulFree_name (isOf : layout.Of text) (nulFree : NulFree text) {name : List Char}
    (member : name ∈ layout.blocks.map Block.name) : NulFree name := by
  rcases isOf with ⟨lines, split, rfl, -, all⟩
  rcases List.mem_map.mp member with ⟨block, inBlocks, rfl⟩
  have inLines : block.header ∈ layout.lines :=
    List.mem_append_right _ (List.mem_flatMap_of_mem inBlocks (List.mem_cons_self ..))
  have headerFree := split.nulFree nulFree block.header inLines
  rcases (all block inBlocks).header with ⟨before, between, behind, ending, same, -⟩
  intro c inName
  apply headerFree c
  rw [same]
  exact List.mem_append_left _ (List.mem_append_right _ inName)

theorem acceptable_congr {nameOf otherName : Query → List Char}
    (same : ∀ query ∈ queries, nameOf query = otherName query)
    (acceptable : Acceptable nameOf layout queries) : Acceptable otherName layout queries where
  before := acceptable.before
  texts := acceptable.texts
  declared := acceptable.declared
  configured := acceptable.configured
  names := by
    intro name
    rw [← List.map_congr_left same]
    exact acceptable.names name
  parameters := by
    intro query member block inBlocks named
    exact acceptable.parameters query member block inBlocks (named.trans (same query member).symm)

/-- Where no name has a NUL character, the queries of a name are one. -/
theorem eq_of_getQueryName_eq (nulFree : ∀ query ∈ queries, NulFree query.rawName)
    (distinct : (queries.map Query.rawName).Nodup) {query other : Query} (member : query ∈ queries)
    (otherMember : other ∈ queries) (same : getQueryName other = getQueryName query) :
    other = query := by
  rw [getQueryName_of_nulFree (nulFree other otherMember),
    getQueryName_of_nulFree (nulFree query member)] at same
  exact List.inj_on_of_nodup_map distinct otherMember member same

/-- The stored texts are those of the blocks. -/
theorem Layout.Of.storesTexts (isOf : layout.Of text) (nulFree : NulFree text)
    (names : ∀ query ∈ queries, NulFree query.rawName)
    (made : makeQueryRepository text queries = .ok repository) :
    StoresTexts repository layout queries := by
  rcases makeQueryRepository_eq_ok_iff.mp made with
    ⟨declared, parsed, found, configured, defined, described⟩
  rcases (isOf.parseQueryConf_eq_ok_iff nulFree).mp found with ⟨-, parsedAs⟩
  intro query member
  rcases List.mem_map.mp (defined query member) with ⟨parsedQuery, inParsed, named⟩
  rcases exists_block_of_parsed parsedAs inParsed with ⟨block, inBlocks, blockName, blockText⟩
  rcases blockText.exists_tokens with ⟨tokens, tokensOf, same⟩
  rcases find?_description described configured inParsed with ⟨description, isMade, isFound⟩
  rcases makeQueryDescription_eq_ok_iff.mp isMade with ⟨-, last, isLast, rfl⟩
  rcases mem_queriesNamed.mp (List.mem_of_getLast? isLast) with ⟨lastMember, lastNamed⟩
  cases eq_of_getQueryName_eq names declared member lastMember (lastNamed.trans named)
  refine ⟨block, inBlocks, ?_, tokens, tokensOf, ?_⟩
  · rw [← blockName, named, getQueryName_of_nulFree (names query member)]
  · rw [Repository.getDescription, ← named, isFound, ← same.render_eq]
    rfl

/-! ## The contract -/

/-- What making a repository is for: it succeeds for what is acceptable, and then
stores the texts. -/
structure MeetsContract (text : List Char) (queries : List Query) (layout : Layout) : Prop where
  accepts : (∃ repository, makeQueryRepository text queries = .ok repository) ↔
    Acceptable Query.rawName layout queries
  stores : ∀ repository, makeQueryRepository text queries = .ok repository →
    StoresTexts repository layout queries

/-- The names of the queries of an acceptable configuration stand in its
headers. -/
theorem Layout.Of.nulFree_rawName (isOf : layout.Of text) (nulFree : NulFree text)
    (acceptable : Acceptable Query.rawName layout queries) :
    ∀ query ∈ queries, NulFree query.rawName := by
  intro query member
  exact isOf.nulFree_name nulFree ((acceptable.names _).mp (List.mem_map_of_mem member))

end Repository

/-- Every text has a layout, and a repository is made as it should be exactly if
no query has a NUL character in its name, or if the text is refused also for the
names up to their NUL characters. -/
theorem makeQueryRepository_contract_iff {text : List Char} (nulFree : NulFree text)
    (queries : List Query) :
    (∃ layout : Layout, layout.Of text) ∧
      ∀ layout : Layout, layout.Of text →
        (MeetsContract text queries layout ↔
          (∀ query ∈ queries, NulFree query.rawName) ∨
            ¬ Acceptable getQueryName layout queries) := by
  refine ⟨exists_layout text, ?_⟩
  intro layout isOf
  constructor
  · intro meets
    by_cases acceptable : Acceptable getQueryName layout queries
    · have made := (isOf.exists_repository_iff nulFree).mpr acceptable
      exact .inl (isOf.nulFree_rawName nulFree (meets.accepts.mp made))
    · exact .inr acceptable
  · rintro (names | refused)
    · have same : ∀ query ∈ queries, getQueryName query = query.rawName := fun query member =>
        getQueryName_of_nulFree (names query member)
      constructor
      · rw [isOf.exists_repository_iff nulFree]
        constructor
        · exact acceptable_congr same
        · exact acceptable_congr fun query member => (same query member).symm
      · intro repository made
        exact isOf.storesTexts nulFree names made
    · -- What would be acceptable has no NUL character in a name.
      have notMade := mt (isOf.exists_repository_iff nulFree).mp refused
      constructor
      · apply iff_of_false notMade
        intro acceptable
        have names := isOf.nulFree_rawName nulFree acceptable
        apply refused
        apply acceptable_congr _ acceptable
        intro query member
        exact (getQueryName_of_nulFree (names query member)).symm
      · intro repository made
        exact absurd ⟨repository, made⟩ notMade

/-- `-- name: a` and `select :0`, each with a line feed. -/
def layoutOfA : Layout where
  before := []
  blocks := [{
    header := ['-', '-', ' ', 'n', 'a', 'm', 'e', ':', ' ', 'a', '\n']
    name := ['a']
    body := [['s', 'e', 'l', 'e', 'c', 't', ' ', ':', '0', '\n']] }]

def textOfA : List Char :=
  layoutOfA.lines.flatten

theorem nulFree_textOfA : NulFree textOfA := by
  decide

theorem layoutOfA_of : layoutOfA.Of textOfA := by
  have first : ∀ c ∈ ['-', '-', ' ', 'n', 'a', 'm', 'e', ':', ' ', 'a'], inLine c = true :=
    List.all_eq_true.mp rfl
  have second : ∀ c ∈ ['s', 'e', 'l', 'e', 'c', 't', ' ', ':', '0'], inLine c = true :=
    List.all_eq_true.mp rfl
  have follows : ∀ rest, Follows ['\n'] rest := fun rest => ⟨by decide, nofun⟩
  refine ⟨layoutOfA.lines, .cons first (follows _) (.cons second (follows []) .nil), rfl, nofun, ?_⟩
  rintro block member
  cases List.mem_singleton.mp member
  constructor
  · exact (run_header_eq_some_iff.mp rfl).1
  · exact List.forall_mem_singleton.mpr (not_isHeader_of_run rfl)

/-- A query `a` with one parameter. -/
def queryA : Query where
  rawName := ['a']
  parameters := .tuple 1 (by decide)

theorem makeQueryRepository_contract_queryA :
    NulFree textOfA ∧ layoutOfA.Of textOfA ∧ NulFree queryA.rawName ∧
      MeetsContract textOfA [queryA] layoutOfA ∧
      (makeQueryRepository textOfA [queryA]).toOption.bind (·.getDescription queryA) =
        some ['s', 'e', 'l', 'e', 'c', 't', ' ', '$', '1'] := by
  have named : NulFree queryA.rawName := by decide
  refine ⟨nulFree_textOfA, layoutOfA_of, named, ?_, by decide⟩
  exact ((makeQueryRepository_contract_iff nulFree_textOfA [queryA]).2 layoutOfA layoutOfA_of).mpr
    (.inl (List.forall_mem_singleton.mpr named))

/-- A query whose name is `a`, a NUL character and `b`. -/
def queryANulB : Query where
  rawName := ['a', '\x00', 'b']
  parameters := .tuple 1 (by decide)

/-- A repository is made although the name is not configured. -/
theorem makeQueryRepository_ignores_name_behind_nul :
    NulFree textOfA ∧ layoutOfA.Of textOfA ∧
      (∃ repository, makeQueryRepository textOfA [queryANulB] = .ok repository) ∧
      ¬ Acceptable Query.rawName layoutOfA [queryANulB] ∧
      ¬ MeetsContract textOfA [queryANulB] layoutOfA := by
  have made : ∃ repository, makeQueryRepository textOfA [queryANulB] = .ok repository := ⟨_, rfl⟩
  have notAcceptable : ¬ Acceptable Query.rawName layoutOfA [queryANulB] := by
    intro acceptable
    have configured := (acceptable.names queryANulB.rawName).mp (List.mem_cons_self ..)
    revert configured
    decide
  exact ⟨nulFree_textOfA, layoutOfA_of, made, notAcceptable,
    fun meets => notAcceptable (meets.accepts.mp made)⟩

end Bozo.QueryConf
