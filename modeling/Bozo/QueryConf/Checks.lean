import Bozo.QueryConf.Repository
import Mathlib.Data.List.Forall2
import Mathlib.Data.List.Nodup

/-!
# What each check of the repository accepts

One lemma for each function: when it succeeds, and with what.
-/

namespace Bozo.QueryConf

section Except

variable {ε α β : Type} {first : Except ε α}

theorem bind_eq_ok_iff {next : α → Except ε β} {result : β} :
    first.bind next = .ok result ↔ ∃ value, first = .ok value ∧ next value = .ok result := by
  cases first with
  | error e =>
      constructor
      · nofun
      · rintro ⟨_, failed, -⟩
        cases failed
  | ok value =>
      constructor
      · intro succeeds
        exact ⟨value, rfl, succeeds⟩
      · rintro ⟨_, ⟨⟩, succeeds⟩
        exact succeeds

theorem map_eq_ok_iff {f : α → β} {result : β} :
    first.map f = .ok result ↔ ∃ value, first = .ok value ∧ f value = result := by
  cases first with
  | error e =>
      constructor
      · nofun
      · rintro ⟨_, failed, -⟩
        cases failed
  | ok value =>
      constructor
      · rintro ⟨⟩
        exact ⟨value, rfl, rfl⟩
      · rintro ⟨_, ⟨⟩, rfl⟩
        rfl

end Except

/-! ## Names -/

/-- Names are inserted exactly if they differ from each other and from those
that are there. -/
theorem insertNames_eq_ok_iff {error : List Char → ConfError} {set names result : List (List Char)} :
    insertNames error set names = .ok result ↔
      names.Nodup ∧ (∀ name ∈ names, name ∉ set) ∧ result = set ++ names := by
  induction names generalizing set with
  | nil =>
      rw [insertNames, List.append_nil]
      constructor
      · rintro ⟨⟩
        exact ⟨List.nodup_nil, nofun, rfl⟩
      · rintro ⟨-, -, rfl⟩
        rfl
  | cons name names ih =>
      rw [insertNames, List.nodup_cons, List.forall_mem_cons]
      split <;> rename_i known
      · constructor
        · nofun
        · rintro ⟨-, ⟨fresh, -⟩, -⟩
          exact absurd known fresh
      · rw [ih, List.append_assoc, List.singleton_append]
        constructor
        · rintro ⟨distinct, fresh, rfl⟩
          refine ⟨⟨?_, distinct⟩, ⟨known, ?_⟩, rfl⟩
          · exact fun again => fresh name again (List.mem_append_right _ (List.mem_singleton_self _))
          · exact fun other member inSet => fresh other member (List.mem_append_left _ inSet)
        · rintro ⟨⟨new, distinct⟩, ⟨-, fresh⟩, rfl⟩
          refine ⟨distinct, ?_, rfl⟩
          intro other member inSet
          rcases List.mem_append.mp inSet with before | here
          · exact fresh other member before
          · cases List.mem_singleton.mp here
            exact new member

theorem insertNames_nil_eq_ok_iff {error : List Char → ConfError} {names result : List (List Char)} :
    insertNames error [] names = .ok result ↔ names.Nodup ∧ result = names := by
  rw [insertNames_eq_ok_iff, List.nil_append]
  constructor
  · rintro ⟨distinct, -, same⟩
    exact ⟨distinct, same⟩
  · rintro ⟨distinct, same⟩
    exact ⟨distinct, fun _ _ => List.not_mem_nil, same⟩

theorem checkForDuplicateDeclarations_eq_ok_iff {queries : List Query}
    {result : List (List Char)} :
    checkForDuplicateDeclarations queries = .ok result ↔
      (queries.map Query.rawName).Nodup ∧ result = queries.map Query.rawName :=
  insertNames_nil_eq_ok_iff

theorem checkForDuplicateDefinitions_eq_ok_iff {parsed : List ParsedQuery}
    {result : List (List Char)} :
    checkForDuplicateDefinitions parsed = .ok result ↔
      (parsed.map ParsedQuery.name).Nodup ∧ result = parsed.map ParsedQuery.name :=
  insertNames_nil_eq_ok_iff

theorem checkForUndefined_eq_ok_iff {definitions : List (List Char)} {queries : List Query} :
    checkForUndefined definitions queries = .ok () ↔
      ∀ query ∈ queries, getQueryName query ∈ definitions := by
  induction queries with
  | nil => exact iff_of_true rfl nofun
  | cons query queries ih =>
      rw [checkForUndefined, List.forall_mem_cons]
      split <;> rename_i defined
      · rw [ih, and_iff_right defined]
      · constructor
        · nofun
        · rintro ⟨here, -⟩
          exact absurd here defined

/-! ## Parameters -/

/-- The index that the name of a parameter stands for: that of a member, or the
number itself. -/
def Query.index? (q : Query) (name : List Char) : Option Nat :=
  match q.parameters with
  | .adapted members => members.idxOf? name
  | .tuple size _ =>
      if name ≠ [] ∧ name.all isDigit ∧ decimal name < size then some (decimal name) else none

/-- Behind the member that is found nothing is counted. -/
theorem foldl_memberStep_found (name : List Char) (members : List (List Char)) (number : Nat) :
    members.foldl (memberStep name) (true, number) = (true, number) := by
  induction members with
  | nil => rfl
  | cons member members ih =>
      have step : memberStep name (true, number) member = (true, number) := by
        simp [memberStep]
      rw [List.foldl_cons, step, ih]

theorem foldl_memberStep (name : List Char) (members : List (List Char)) (number : Nat) :
    members.foldl (memberStep name) (false, number) =
      match members.idxOf? name with
      | some i => (true, number + i)
      | none => (false, number + members.length) := by
  induction members generalizing number with
  | nil => rfl
  | cons member members ih =>
      rw [List.foldl_cons, List.idxOf?_cons]
      by_cases here : member = name
      · have step : memberStep name (false, number) member = (true, number) := by
          simp [memberStep, here]
        rw [step, foldl_memberStep_found, if_pos (beq_iff_eq.mpr here)]
        rfl
      · have step : memberStep name (false, number) member = (false, number + 1) := by
          simp [memberStep, here]
        rw [step, ih, if_neg (mt beq_iff_eq.mp here)]
        cases members.idxOf? name with
        | none => simp only [Option.map_none, List.length_cons, Nat.add_assoc, Nat.add_comm 1]
        | some i => simp only [Option.map_some, Nat.add_assoc, Nat.add_comm 1]

/-- A parameter has a number exactly if its name stands for an index. -/
theorem Query.parameterNumber_eq_ok_iff {q : Query} {name : List Char} {number : Nat} :
    q.parameterNumber name = .ok number ↔ q.index? name = some number := by
  unfold Query.parameterNumber Query.index?
  cases q.parameters with
  | adapted members =>
      simp only [findMember, foldl_memberStep, Nat.zero_add]
      cases members.idxOf? name with
      | none => exact iff_of_false nofun nofun
      | some i =>
          constructor
          · rintro ⟨⟩
            rfl
          · rintro ⟨⟩
            rfl
  | tuple size size_lt =>
      simp only [tryLexicalConvert]
      by_cases below : decimal name < size
      · -- A number below the size of a tuple is one that `std::size_t` can hold.
        have fits : decimal name < 2 ^ 64 := Nat.lt_trans below size_lt
        by_cases numeric : name ≠ [] ∧ name.all isDigit = true
        · rw [if_pos ⟨numeric.1, numeric.2, fits⟩, if_pos ⟨numeric.1, numeric.2, below⟩]
          simp only [ge_iff_le, Nat.not_le.mpr below, if_false, Except.ok.injEq, Option.some.injEq]
        · rw [if_neg fun all => numeric ⟨all.1, all.2.1⟩,
            if_neg fun all => numeric ⟨all.1, all.2.1⟩]
          exact iff_of_false nofun nofun
      · have large : decimal name ≥ size := Nat.le_of_not_lt below
        rw [if_neg (c := name ≠ [] ∧ name.all isDigit = true ∧ decimal name < size)
          fun all => below all.2.2]
        refine iff_of_false ?_ nofun
        split <;> rename_i converted
        · nofun
        · split at converted
          · cases converted
            rw [if_pos large]
            nofun
          · cases converted

/-! ## Texts -/

/-- What the name of a parameter is replaced by. -/
def Query.replacement (q : Query) (name : List Char) : List Char :=
  ((q.index? name).map placeholder).getD []

theorem Query.visitPart_eq_ok_iff {q : Query} {part : QueryTextElement} {value : List Char} :
    q.visitPart part = .ok value ↔
      (∀ name ∈ part.parameter?, (q.index? name).isSome = true) ∧
        value = part.render q.replacement := by
  cases part with
  | textPart kept =>
      constructor
      · rintro ⟨⟩
        exact ⟨nofun, rfl⟩
      · rintro ⟨-, rfl⟩
        rfl
  | parameterName name =>
      rw [Query.visitPart, map_eq_ok_iff]
      constructor
      · rintro ⟨number, found, rfl⟩
        have indexed := Query.parameterNumber_eq_ok_iff.mp found
        refine ⟨?_, ?_⟩
        · rintro _ ⟨⟩
          rw [indexed]
          rfl
        · rw [QueryTextElement.render, Query.replacement, indexed]
          rfl
      · rintro ⟨known, rfl⟩
        rcases Option.isSome_iff_exists.mp (known name rfl) with ⟨number, indexed⟩
        refine ⟨number, Query.parameterNumber_eq_ok_iff.mpr indexed, ?_⟩
        rw [QueryTextElement.render, Query.replacement, indexed]
        rfl

/-- Every parameter in a text stands for an index. -/
def Query.Knows (q : Query) (text : List QueryTextElement) : Prop :=
  ∀ name ∈ text.filterMap (·.parameter?), (q.index? name).isSome = true

theorem Query.knows_cons {q : Query} {part : QueryTextElement} {text : List QueryTextElement} :
    q.Knows (part :: text) ↔
      (∀ name ∈ part.parameter?, (q.index? name).isSome = true) ∧ q.Knows text := by
  unfold Query.Knows
  cases part with
  | textPart value =>
      constructor
      · exact fun all => ⟨nofun, all⟩
      · exact fun both => both.2
  | parameterName name =>
      have named : (QueryTextElement.parameterName name).parameter? = some name := rfl
      rw [List.filterMap_cons_some named, List.forall_mem_cons]
      constructor
      · rintro ⟨here, others⟩
        refine ⟨?_, others⟩
        rintro _ ⟨⟩
        exact here
      · rintro ⟨here, others⟩
        exact ⟨here name rfl, others⟩

theorem Query.visitParts_eq_ok_iff {q : Query} {parts : List QueryTextElement}
    {text result : List Char} :
    q.visitParts text parts = .ok result ↔
      q.Knows parts ∧ result = text ++ parts.flatMap (·.render q.replacement) := by
  induction parts generalizing text with
  | nil =>
      rw [Query.visitParts, List.flatMap_nil, List.append_nil]
      constructor
      · rintro ⟨⟩
        exact ⟨nofun, rfl⟩
      · rintro ⟨-, rfl⟩
        rfl
  | cons part parts ih =>
      rw [Query.visitParts, bind_eq_ok_iff, Query.knows_cons, List.flatMap_cons,
        ← List.append_assoc]
      constructor
      · rintro ⟨value, visited, others⟩
        rcases Query.visitPart_eq_ok_iff.mp visited with ⟨here, rfl⟩
        rcases ih.mp others with ⟨behind, same⟩
        exact ⟨⟨here, behind⟩, same⟩
      · rintro ⟨⟨here, behind⟩, same⟩
        exact ⟨_, Query.visitPart_eq_ok_iff.mpr ⟨here, rfl⟩, ih.mpr ⟨behind, same⟩⟩

/-- The description that is made of a text. -/
def Query.description (q : Query) (parsed : ParsedQuery) : QueryDescription where
  name := parsed.name
  text := trim (parsed.text.flatMap (·.render q.replacement))

theorem Query.makeQueryDescription_eq_ok_iff {q : Query} {parsed : ParsedQuery}
    {description : QueryDescription} :
    q.makeQueryDescription parsed = .ok description ↔
      q.Knows parsed.text ∧ description = q.description parsed := by
  rw [Query.makeQueryDescription, map_eq_ok_iff]
  constructor
  · rintro ⟨text, visited, rfl⟩
    rcases Query.visitParts_eq_ok_iff.mp visited with ⟨known, rfl⟩
    exact ⟨known, rfl⟩
  · rintro ⟨known, rfl⟩
    exact ⟨_, Query.visitParts_eq_ok_iff.mpr ⟨known, rfl⟩, rfl⟩

/-! ## Descriptions -/

section Descriptions

variable {queries : List Query}

/-- The queries of a name. -/
def queriesNamed (queries : List Query) (name : List Char) : List Query :=
  queries.filter fun query => getQueryName query = name

theorem mem_queriesNamed {query : Query} {name : List Char} :
    query ∈ queriesNamed queries name ↔ query ∈ queries ∧ getQueryName query = name := by
  rw [queriesNamed, List.mem_filter, decide_eq_true_iff]

/-- The loop over the queries ends with the last one of the name. -/
theorem describe_eq_ok_iff {parsed : ParsedQuery} {found result : Option QueryDescription} :
    describe parsed found queries = .ok result ↔
      (∀ query ∈ queriesNamed queries parsed.name, query.Knows parsed.text) ∧
        result =
          ((queriesNamed queries parsed.name).getLast?.map (·.description parsed)).or found := by
  induction queries generalizing found with
  | nil =>
      constructor
      · rintro ⟨⟩
        exact ⟨nofun, rfl⟩
      · rintro ⟨-, rfl⟩
        rfl
  | cons query queries ih =>
      rw [describe]
      split <;> rename_i named
      · have first : queriesNamed (query :: queries) parsed.name =
            query :: queriesNamed queries parsed.name :=
          List.filter_cons_of_pos (decide_eq_true named)
        have last : ((query :: queriesNamed queries parsed.name).getLast?.map
              (·.description parsed)).or found =
            ((queriesNamed queries parsed.name).getLast?.map (·.description parsed)).or
              (some (query.description parsed)) := by
          rw [List.getLast?_cons]
          cases (queriesNamed queries parsed.name).getLast? with
          | none => rfl
          | some other => rfl
        rw [first, List.forall_mem_cons, last, bind_eq_ok_iff]
        constructor
        · rintro ⟨description, described, others⟩
          rcases Query.makeQueryDescription_eq_ok_iff.mp described with ⟨known, rfl⟩
          rcases ih.mp others with ⟨behind, same⟩
          exact ⟨⟨known, behind⟩, same⟩
        · rintro ⟨⟨known, behind⟩, same⟩
          exact ⟨_, Query.makeQueryDescription_eq_ok_iff.mpr ⟨known, rfl⟩, ih.mpr ⟨behind, same⟩⟩
      · have none : queriesNamed (query :: queries) parsed.name =
            queriesNamed queries parsed.name :=
          List.filter_cons_of_neg (mt of_decide_eq_true named)
        rw [none, ih]

theorem makeQueryDescription_eq_ok_iff {parsed : ParsedQuery} {description : QueryDescription} :
    makeQueryDescription queries parsed = .ok description ↔
      (∀ query ∈ queriesNamed queries parsed.name, query.Knows parsed.text) ∧
        ∃ query ∈ (queriesNamed queries parsed.name).getLast?,
          description = query.description parsed := by
  rw [makeQueryDescription, bind_eq_ok_iff]
  constructor
  · rintro ⟨result, described, same⟩
    rcases describe_eq_ok_iff.mp described with ⟨known, rfl⟩
    refine ⟨known, ?_⟩
    rw [Option.or_none] at same
    cases last : (queriesNamed queries parsed.name).getLast? with
    | none =>
        rw [last] at same
        cases same
    | some query =>
        rw [last] at same
        cases same
        exact ⟨query, rfl, rfl⟩
  · rintro ⟨known, query, last, rfl⟩
    refine ⟨_, describe_eq_ok_iff.mpr ⟨known, rfl⟩, ?_⟩
    rw [Option.mem_def.mp last]
    rfl

theorem makeQueryDescriptions_eq_ok_iff {parsed : List ParsedQuery}
    {descriptions : List QueryDescription} :
    makeQueryDescriptions queries parsed = .ok descriptions ↔
      List.Forall₂ (fun query description => makeQueryDescription queries query = .ok description)
        parsed descriptions := by
  induction parsed generalizing descriptions with
  | nil =>
      rw [List.forall₂_nil_left_iff]
      constructor
      · rintro ⟨⟩
        rfl
      · rintro rfl
        rfl
  | cons query parsed ih =>
      rw [makeQueryDescriptions, bind_eq_ok_iff, List.forall₂_cons_left_iff]
      constructor
      · rintro ⟨description, first, rest⟩
        rcases map_eq_ok_iff.mp rest with ⟨others, behind, rfl⟩
        exact ⟨description, others, first, ih.mp behind, rfl⟩
      · rintro ⟨description, others, first, behind, rfl⟩
        exact ⟨description, first, map_eq_ok_iff.mpr ⟨others, ih.mpr behind, rfl⟩⟩

/-- Under the name of a text its description is found. -/
theorem find?_description {parsed : List ParsedQuery} {descriptions : List QueryDescription}
    (described : List.Forall₂
      (fun query description => makeQueryDescription queries query = .ok description)
      parsed descriptions)
    (distinct : (parsed.map ParsedQuery.name).Nodup) {query : ParsedQuery}
    (member : query ∈ parsed) :
    ∃ description, makeQueryDescription queries query = .ok description ∧
      (descriptions.find? fun other => other.name = query.name) = some description := by
  induction described with
  | nil => cases member
  | @cons first description parsed descriptions here _ ih =>
      rw [List.map_cons, List.nodup_cons] at distinct
      rcases makeQueryDescription_eq_ok_iff.mp here with ⟨-, last, -, made⟩
      have named : description.name = first.name := congrArg QueryDescription.name made
      rcases List.mem_cons.mp member with rfl | behind
      · exact ⟨description, here, List.find?_cons_of_pos (decide_eq_true named)⟩
      · have differs : ¬ description.name = query.name := by
          rw [named]
          intro same
          exact distinct.1 (same ▸ List.mem_map_of_mem behind)
        rcases ih distinct.2 behind with ⟨found, foundDescribed, isFound⟩
        refine ⟨found, foundDescribed, Eq.trans ?_ isFound⟩
        exact List.find?_cons_of_neg (mt of_decide_eq_true differs)

end Descriptions

end Bozo.QueryConf
