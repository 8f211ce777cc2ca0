import Mathlib.Logic.Function.Basic
import Mathlib.Tactic.Common

/-!
# Storing into objects that are shared

An object may refer to objects elsewhere in a memory, and several objects to the
same one.  Storing a frame into an object stores a part of it there and passes
other parts on to the objects it refers to.  All of them are stored one after
another, so that a later frame may land in an object that has taken one before.

In the end an object holds what its frame shows exactly if, before anything is
stored, one value can be given for every shared object such that all frames
which land in the object show it, and the object lets the value replace its old
contents.
-/

namespace Bozo.Memory

universe u v

/-- An object of some kind, by its address. -/
abbrev Cell (κ ι : Type u) :=
  κ × ι

/-- The objects at all addresses. -/
abbrev Objects {κ : Type u} (ι : Type u) (Object : κ → Type v) :=
  (c : Cell κ ι) → Object c.1

/-- A frame on its way to an object. -/
abbrev Landing {κ : Type u} (ι : Type u) (Frame : κ → Type v) :=
  (c : Cell κ ι) × Frame c.1

/-- What becomes of an object when a frame is stored into it, and what is passed
on to the objects it refers to. -/
structure Storing {κ : Type u} (ι : Type u) (Object Frame : κ → Type v) where
  store : (k : κ) → Object k → Frame k → Object k
  passed : (k : κ) → Object k → Frame k → List (Landing ι Frame)

variable {κ ι : Type u} [DecidableEq κ] [DecidableEq ι] {Object Frame : κ → Type v}

namespace Storing

variable (S : Storing ι Object Frame)

/-- A frame is stored into the object where it lands. -/
def land (m : Objects ι Object) (landing : Landing ι Frame) : Objects ι Object :=
  Function.update m landing.1 (S.store landing.1.1 (m landing.1) landing.2)

/-- Frames land one after another, and what they pass on lands before the next
one: all landings in order, and the memory behind them. -/
inductive Lands : List (Landing ι Frame) → Objects ι Object → List (Landing ι Frame) →
    Objects ι Object → Prop
  | done (m : Objects ι Object) : Lands [] m [] m
  | land {landing : Landing ι Frame} {pending landings : List (Landing ι Frame)}
      {m last : Objects ι Object}
      (onwards : Lands (S.passed landing.1.1 (m landing.1) landing.2 ++ pending) (S.land m landing)
        landings last) : Lands (landing :: pending) m (landing :: landings) last

end Storing

namespace Storing.Lands

variable {S : Storing ι Object Frame} {m middle last : Objects ι Object}
  {pending first second landings others : List (Landing ι Frame)}

theorem append (here : S.Lands first m landings middle)
    (there : S.Lands second middle others last) :
    S.Lands (first ++ second) m (landings ++ others) last := by
  induction here with
  | done m => exact there
  | land _ ih =>
      have later := ih there
      rw [List.append_assoc] at later
      exact .land later

/-- All that is pending lands. -/
theorem pending_subset (lands : S.Lands pending m landings last) : pending ⊆ landings := by
  induction lands with
  | done m => exact List.Subset.refl []
  | land _ ih =>
      apply List.cons_subset_cons
      exact fun landing member => ih (List.mem_append_right _ member)

/-- A landing was pending from the beginning, or it was passed on by an earlier
one. -/
theorem origin (lands : S.Lands pending m landings last) {landing : Landing ι Frame}
    (member : landing ∈ landings) :
    landing ∈ pending ∨ ∃ (before : Landing ι Frame) (here : Objects ι Object)
      (later behind : List (Landing ι Frame)),
      S.Lands (before :: later) here (before :: behind) last ∧ before :: behind ⊆ landings ∧
        landing ∈ S.passed before.1.1 (here before.1) before.2 := by
  induction lands with
  | done m => cases member
  | @land first pending landings m last onwards ih =>
      rcases List.mem_cons.mp member with rfl | member
      · exact .inl List.mem_cons_self
      · rcases ih member with waiting | ⟨before, here, later, behind, rest, among, passed⟩
        · rcases List.mem_append.mp waiting with passed | waiting
          · exact .inr ⟨first, m, pending, landings, .land onwards, List.Subset.refl _, passed⟩
          · exact .inl (List.mem_cons_of_mem _ waiting)
        · exact .inr ⟨before, here, later, behind, rest,
            fun other known => List.mem_cons_of_mem _ (among known), passed⟩

/-- What the first landing in an object passes on, lands as well. -/
theorem passed_subset (lands : S.Lands pending m landings last) {c : Cell κ ι}
    (reached : ∃ landing ∈ landings, landing.1 = c) :
    ∃ frame, ⟨c, frame⟩ ∈ landings ∧ S.passed c.1 (m c) frame ⊆ landings := by
  induction lands with
  | done m =>
      rcases reached with ⟨landing, member, -⟩
      cases member
  | @land first pending landings m last onwards ih =>
      rcases first with ⟨here, frame⟩
      by_cases same : here = c
      · subst same
        refine ⟨frame, List.mem_cons_self, fun landing passed => ?_⟩
        exact List.mem_cons_of_mem _ (onwards.pending_subset (List.mem_append_left _ passed))
      · have later : ∃ landing ∈ landings, landing.1 = c := by
          rcases reached with ⟨landing, member, rfl⟩
          rcases List.mem_cons.mp member with rfl | member
          · exact absurd rfl same
          · exact ⟨landing, member, rfl⟩
        rcases ih later with ⟨frame', member, among⟩
        rw [Storing.land, Function.update_of_ne (Ne.symm same)] at among
        exact ⟨frame', List.mem_cons_of_mem _ member,
          fun landing passed => List.mem_cons_of_mem _ (among passed)⟩

/-- What can be told of an object behind a landing from what it is afterwards
can be told of it before all landings. -/
theorem backwards (lands : S.Lands pending m landings last) {c : Cell κ ι} {P : Object c.1 → Prop}
    (back : ∀ frame, ⟨c, frame⟩ ∈ landings → ∀ o, P (S.store c.1 o frame) → P o)
    (holds : P (last c)) : P (m c) := by
  induction lands with
  | done m => exact holds
  | @land first pending landings m last onwards ih =>
      have behind := ih (fun frame member => back frame (List.mem_cons_of_mem _ member)) holds
      rcases first with ⟨here, frame⟩
      by_cases same : here = c
      · subst same
        apply back frame List.mem_cons_self
        simpa only [Storing.land, Function.update_self] using behind
      · simpa only [Storing.land, Function.update_of_ne (Ne.symm same)] using behind

end Storing.Lands

/-! ## Kinds in order -/

namespace Storing

variable (S : Storing ι Object Frame)

/-- What is passed on goes to objects of lower kinds. -/
def Descends (rank : κ → Nat) : Prop :=
  ∀ k o frame, ∀ landing ∈ S.passed k o frame, rank landing.1.1 < rank k

variable {S} {rank : κ → Nat} {pending landings : List (Landing ι Frame)}
  {m last : Objects ι Object}

theorem Lands.rank_lt (descends : S.Descends rank) (lands : S.Lands pending m landings last)
    {bound : Nat} (below : ∀ landing ∈ pending, rank landing.1.1 < bound) :
    ∀ landing ∈ landings, rank landing.1.1 < bound := by
  induction lands with
  | done m => exact nofun
  | land _ ih =>
      rcases List.forall_mem_cons.mp below with ⟨here, others⟩
      refine List.forall_mem_cons.mpr ⟨here, ih ?_⟩
      intro landing member
      rcases List.mem_append.mp member with passed | waiting
      · exact Nat.lt_trans (descends _ _ _ landing passed) here
      · exact others landing waiting

/-- An object of a higher kind has no part in what lands below it. -/
theorem Lands.update (descends : S.Descends rank) (lands : S.Lands pending m landings last)
    {c : Cell κ ι} (below : ∀ landing ∈ pending, rank landing.1.1 < rank c.1) (o : Object c.1) :
    S.Lands pending (Function.update m c o) landings (Function.update last c o) := by
  induction lands with
  | done m => exact .done _
  | @land first pending landings m last onwards ih =>
      rcases List.forall_mem_cons.mp below with ⟨here, others⟩
      have differs : first.1 ≠ c := fun same => absurd here (by rw [same]; exact Nat.lt_irrefl _)
      have later := ih fun landing member => by
        rcases List.mem_append.mp member with passed | waiting
        · exact Nat.lt_trans (descends _ _ _ landing passed) here
        · exact others landing waiting
      apply Lands.land
      rw [Storing.land, Function.update_of_ne differs, Function.update_comm differs.symm]
      exact later

/-! ## What objects hold in the end -/

section Values

universe w

variable {Value : κ → Type w}

/-- What the rules below rest on.  A value shows a frame; `fits into o v` says that
the object `o` lets the value `v` replace its old contents, and `holds into o v`
that it holds that value, when the shared objects that it refers to take or hold
what `into` tells. -/
structure Lawful (S : Storing ι Object Frame) (rank : κ → Nat)
    (shows : (k : κ) → Value k → Frame k → Prop)
    (fits holds : ((c : Cell κ ι) → Value c.1 → Prop) → (k : κ) → Object k → Value k → Prop) :
    Prop where
  descends : S.Descends rank
  fits_mono : ∀ {into more : (c : Cell κ ι) → Value c.1 → Prop} {k o v},
    (∀ c v, into c v → more c v) → fits into k o v → fits more k o v
  holds_mono : ∀ {into more : (c : Cell κ ι) → Value c.1 → Prop} {k o v},
    (∀ c v, into c v → more c v) → holds into k o v → holds more k o v
  fits_of_holds : ∀ {into k o v}, holds into k o v → fits into k o v
  holds_store : ∀ {into k o v frame}, shows k v frame → fits into k o v →
    holds into k (S.store k o frame) v
  fits_of_store : ∀ {into k o v frame}, shows k v frame → fits into k (S.store k o frame) v →
    fits into k o v
  fits_passed : ∀ {into k o v frame}, shows k v frame → fits into k o v →
    fits (fun c v => into c v ∧ ∃ part, ⟨c, part⟩ ∈ S.passed k o frame) k o v
  shows_passed : ∀ {into k o v frame}, shows k v frame → fits into k o v →
    ∀ landing ∈ S.passed k o frame, ∃ v, into landing.1 v ∧ shows landing.1.1 v landing.2

variable {shows : (k : κ) → Value k → Frame k → Prop}
  {fits holds : ((c : Cell κ ι) → Value c.1 → Prop) → (k : κ) → Object k → Value k → Prop}

/-- A value can be given for every shared object that something is to land in, so
that the object lets it replace its old contents. -/
def Takes (fits : ((c : Cell κ ι) → Value c.1 → Prop) → (k : κ) → Object k → Value k → Prop)
    (m : Objects ι Object) (k : κ) (o : Object k) (v : Value k) : Prop :=
  ∃ given : (c : Cell κ ι) → Option (Value c.1),
    fits (fun c v => given c = some v) k o v ∧
      ∀ c v, given c = some v → fits (fun c v => given c = some v) c.1 (m c) v

/-- Objects that have taken their value hold it, up to the objects that they refer
to, which have taken theirs or have it pending. -/
def Taken (holds : ((c : Cell κ ι) → Value c.1 → Prop) → (k : κ) → Object k → Value k → Prop)
    (rank : κ → Nat) (given : (c : Cell κ ι) → Option (Value c.1)) (reached : Cell κ ι → Prop)
    (m : Objects ι Object) (c : Cell κ ι) : Prop :=
  ∃ v, given c = some v ∧
    holds (fun d v => given d = some v ∧ rank d.1 < rank c.1 ∧ reached d) c.1 (m c) v

/-- Whatever lands in an object that has a value shows the value, and leaves the
object with it. -/
theorem Lands.taken (lawful : Lawful S rank shows fits holds)
    {given : (c : Cell κ ι) → Option (Value c.1)} (lands : S.Lands pending m landings last)
    (each : ∀ c v, given c = some v → fits (fun c v => given c = some v) c.1 (m c) v)
    (shown : ∀ landing ∈ pending, ∃ v, given landing.1 = some v ∧ shows landing.1.1 v landing.2)
    {earlier : Cell κ ι → Prop}
    (before : ∀ c, earlier c →
      Taken holds rank given (fun d => earlier d ∨ ∃ landing ∈ pending, landing.1 = d) m c) :
    ∀ c, earlier c ∨ (∃ landing ∈ landings, landing.1 = c) →
      Taken holds rank given (fun d => earlier d ∨ ∃ landing ∈ landings, landing.1 = d) last c := by
  induction lands generalizing earlier with
  | done m =>
      rintro c (known | ⟨landing, member, -⟩)
      · exact before c known
      · cases member
  | @land first pending landings m last onwards ih =>
      rcases first with ⟨here, frame⟩
      rcases List.forall_mem_cons.mp shown with ⟨⟨v, known, shows_v⟩, others⟩
      have fit := each here v known
      have stored := lawful.holds_store shows_v (lawful.fits_passed shows_v fit)
      -- the object of the landing, and all others that have a value
      have eachLater : ∀ c v, given c = some v →
          fits (fun c v => given c = some v) c.1 (S.land m ⟨here, frame⟩ c) v := by
        intro c v' known'
        by_cases same : c = here
        · subst same
          rw [known] at known'
          cases known'
          rw [Storing.land, Function.update_self]
          exact lawful.fits_of_holds (lawful.holds_mono (fun _ _ => And.left) stored)
        · rw [Storing.land, Function.update_of_ne same]
          exact each c v' known'
      have shownLater : ∀ landing ∈ S.passed here.1 (m here) frame ++ pending,
          ∃ v, given landing.1 = some v ∧ shows landing.1.1 v landing.2 := by
        intro landing member
        rcases List.mem_append.mp member with passed | waiting
        · exact lawful.shows_passed shows_v fit landing passed
        · exact others landing waiting
      have beforeLater : ∀ c, (earlier c ∨ c = here) →
          Taken holds rank given (fun d => (earlier d ∨ d = here) ∨
            ∃ landing ∈ S.passed here.1 (m here) frame ++ pending, landing.1 = d)
            (S.land m ⟨here, frame⟩) c := by
        intro c reached
        by_cases same : c = here
        · subst same
          refine ⟨v, known, ?_⟩
          rw [Storing.land, Function.update_self]
          refine lawful.holds_mono ?_ stored
          rintro d v' ⟨given', part, member⟩
          exact ⟨given', lawful.descends _ _ _ _ member,
            .inr ⟨_, List.mem_append_left _ member, rfl⟩⟩
        · rcases before c (reached.resolve_right same) with ⟨v', known', held⟩
          refine ⟨v', known', ?_⟩
          rw [Storing.land, Function.update_of_ne same]
          refine lawful.holds_mono ?_ held
          rintro d v'' ⟨given', lower, known | ⟨landing, member, rfl⟩⟩
          · exact ⟨given', lower, .inl (.inl known)⟩
          · rcases List.mem_cons.mp member with rfl | waiting
            · exact ⟨given', lower, .inl (.inr rfl)⟩
            · exact ⟨given', lower, .inr ⟨landing, List.mem_append_right _ waiting, rfl⟩⟩
      intro c reached
      have inLandings : ∀ d, ((earlier d ∨ d = here) ∨ ∃ landing ∈ landings, landing.1 = d) ↔
          (earlier d ∨ ∃ landing ∈ ⟨here, frame⟩ :: landings, landing.1 = d) := by
        intro d
        simp only [List.mem_cons, exists_eq_or_imp, or_assoc, eq_comm]
      have behind := ih eachLater shownLater beforeLater c ((inLandings c).mpr reached)
      simpa only [Taken, inLandings] using behind

variable {value : Objects ι Object → (k : κ) → Object k → Value k} {k : κ} {o : Object k}
  {frame : Frame k}

/-- Objects that can take their values hold them in the end. -/
theorem Lands.value_eq (lawful : Lawful S rank shows fits holds)
    (value_eq_iff : ∀ m k o v,
      value m k o = v ↔ holds (fun c v => value m c.1 (m c) = v) k o v)
    (lands : S.Lands (S.passed k o frame) m landings last) {v : Value k} (shown : shows k v frame)
    (takes : Takes fits m k o v) : value last k (S.store k o frame) = v := by
  rcases takes with ⟨given, fit, each⟩
  have nowhere : ∀ c, False → Taken holds rank given
      (fun d => False ∨ ∃ landing ∈ S.passed k o frame, landing.1 = d) m c := fun _ => False.elim
  have taken := lands.taken lawful each (lawful.shows_passed shown fit) nowhere
  simp only [false_or] at taken
  -- what is passed on goes to lower kinds
  have reached : ∀ (n : Nat) (c : Cell κ ι), rank c.1 < n → (∃ landing ∈ landings, landing.1 = c) →
      ∀ v, given c = some v → value last c.1 (last c) = v := by
    intro n
    induction n with
    | zero => exact fun c below => absurd below (Nat.not_lt_zero _)
    | succ n ih =>
        intro c below landed v known
        rcases taken c landed with ⟨v', known', held⟩
        rw [known] at known'
        cases known'
        refine (value_eq_iff ..).mpr (lawful.holds_mono ?_ held)
        rintro d v'' ⟨given', lower, landed'⟩
        exact ih d (Nat.lt_of_lt_of_le lower (Nat.le_of_lt_succ below)) landed' v'' given'
  have stored := lawful.holds_store shown (lawful.fits_passed shown fit)
  refine (value_eq_iff ..).mpr (lawful.holds_mono ?_ stored)
  rintro d v' ⟨known, part, passed⟩
  exact reached _ d (Nat.lt_succ_self _) ⟨_, lands.pending_subset passed, rfl⟩ v' known

/-- If an object shows its frame in the end, every shared object shows all frames
that have landed in it. -/
theorem Lands.shows_of_shows (lawful : Lawful S rank shows fits holds)
    (value_eq_iff : ∀ m k o v,
      value m k o = v ↔ holds (fun c v => value m c.1 (m c) = v) k o v)
    (lands : S.Lands (S.passed k o frame) m landings last)
    (shown : shows k (value last k (S.store k o frame)) frame) :
    ∀ landing ∈ landings,
      shows landing.1.1 (value last landing.1.1 (last landing.1)) landing.2 := by
  have below := lands.rank_lt lawful.descends (lawful.descends k o frame)
  -- the higher the kind, the earlier
  suffices descending : ∀ (n : Nat), ∀ landing ∈ landings, rank k - rank landing.1.1 = n →
      shows landing.1.1 (value last landing.1.1 (last landing.1)) landing.2 from
    fun landing member => descending _ landing member rfl
  intro n
  induction n using Nat.strongRecOn with
  | _ n ih =>
      intro landing member distance
      rcases lands.origin member with passed | ⟨before, here, later, behind, rest, among, passed⟩
      · have fit := lawful.fits_of_store shown (lawful.fits_of_holds ((value_eq_iff ..).mp rfl))
        rcases lawful.shows_passed shown fit landing passed with ⟨v, rfl, shows_v⟩
        exact shows_v
      · have lower := lawful.descends _ _ _ landing passed
        have higher : ∀ frame', ⟨before.1, frame'⟩ ∈ before :: behind →
            shows before.1.1 (value last before.1.1 (last before.1)) frame' := by
          intro frame' member'
          have top : rank before.1.1 < rank k :=
            below before (among List.mem_cons_self)
          have nearer : rank k - rank before.1.1 < n :=
            distance ▸ Nat.sub_lt_sub_left (Nat.lt_trans lower top) lower
          exact ih _ nearer ⟨before.1, frame'⟩ (among member') rfl
        have fit := rest.backwards (c := before.1)
          (P := fun o => fits (fun c v => value last c.1 (last c) = v) before.1.1 o
            (value last before.1.1 (last before.1)))
          (fun frame' member' _ => lawful.fits_of_store (higher frame' member'))
          (lawful.fits_of_holds ((value_eq_iff ..).mp rfl))
        rcases lawful.shows_passed (higher before.2 List.mem_cons_self) fit landing passed with
          ⟨v, rfl, shows_v⟩
        exact shows_v

/-- An object shows its frame in the end exactly if it could take a value that
shows it. -/
theorem Lands.shows_iff (lawful : Lawful S rank shows fits holds)
    (value_eq_iff : ∀ m k o v,
      value m k o = v ↔ holds (fun c v => value m c.1 (m c) = v) k o v)
    (lands : S.Lands (S.passed k o frame) m landings last) :
    shows k (value last k (S.store k o frame)) frame ↔
      ∃ v, shows k v frame ∧ Takes fits m k o v := by
  constructor
  · intro shown
    have each := lands.shows_of_shows lawful value_eq_iff shown
    have held : ∀ c, fits (fun c v => value last c.1 (last c) = v) c.1 (last c)
        (value last c.1 (last c)) := fun c => lawful.fits_of_holds ((value_eq_iff ..).mp rfl)
    classical
    refine ⟨_, shown, fun c => if ∃ landing ∈ landings, landing.1 = c then
      some (value last c.1 (last c)) else none, ?_, ?_⟩
    · have fit := lawful.fits_of_store shown (lawful.fits_of_holds ((value_eq_iff ..).mp rfl))
      refine lawful.fits_mono ?_ (lawful.fits_passed shown fit)
      rintro c v ⟨rfl, part, passed⟩
      exact if_pos ⟨_, lands.pending_subset passed, rfl⟩
    · intro c v known
      by_cases reached : ∃ landing ∈ landings, landing.1 = c
      · cases (if_pos reached).symm.trans known
        rcases lands.passed_subset reached with ⟨first, member, among⟩
        have fit := lands.backwards (c := c)
          (P := fun o => fits (fun c v => value last c.1 (last c) = v) c.1 o
            (value last c.1 (last c)))
          (fun frame' member' _ => lawful.fits_of_store (each _ member')) (held c)
        refine lawful.fits_mono ?_ (lawful.fits_passed (each _ member) fit)
        rintro d v' ⟨rfl, part, passed⟩
        exact if_pos ⟨_, among passed, rfl⟩
      · cases (if_neg reached).symm.trans known
  · rintro ⟨v, shown, takes⟩
    rw [lands.value_eq lawful value_eq_iff shown takes]
    exact shown

end Values

end Storing

end Bozo.Memory
