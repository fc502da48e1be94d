import AccessControl.Proofs.Program

/-!
# Programs that take turns

Several programs share a store and take turns, one command or note at a turn and
in any order.  Where some of the programs keep to collections that none of the
others touch, they give and leave the same as when the others never have a turn:
`Pool.Alike.after`.
-/

namespace AccessControl

namespace Program

variable {α : Type}

/-- The program after its next command or note. -/
def advance : Program α → Store → Program α
  | done result, _ => done result
  | note _ next, _ => next
  | ask command next, store => next (store.answer command)

/-- The store after the next command or note of the program. -/
def effect : Program α → Store → Store
  | ask command _, store => store.execute command
  | _, store => store

theorem Uses.advance
    {allowed : Command → Prop} {program : Program α}
    (uses : program.Uses allowed) (store : Store) :
    (program.advance store).Uses allowed := by
  cases uses with
  | done result =>
      exact .done result
  | note record next =>
      exact next
  | ask allows next =>
      exact next _

/-- All commands of the program are about collections with such names. -/
abbrev Within (names : String → Prop) (program : Program α) : Prop :=
  program.Uses fun command => names command.collection

namespace Within

variable {names : String → Prop}

/-- A step changes no collection that the program does not keep to. -/
theorem documents_effect
    {program : Program α} (within : Within names program) (store : Store)
    {name : String} (outside : ¬ names name) :
    (program.effect store).documents name = store.documents name := by
  cases within with
  | done result =>
      rfl
  | note record next =>
      rfl
  | ask named next =>
      have different : name ≠ _ := fun equal => outside (equal ▸ named)
      exact store.documents_execute_of_ne _ different

end Within

end Program

namespace Store

/-- Both stores have the same documents in the collections with such names. -/
def AgreeOn (names : String → Prop) (first second : Store) : Prop :=
  ∀ name, names name → first.documents name = second.documents name

end Store

namespace Program.Within

variable {α : Type} {names : String → Prop} {program : Program α}
  {first second : Store}

/-- Where two stores agree on what the program keeps to, it goes on in the same
way. -/
theorem advance_of_agree
    (within : Within names program) (agree : first.AgreeOn names second) :
    program.advance first = program.advance second := by
  cases within with
  | done result =>
      rfl
  | note record next =>
      rfl
  | @ask command next named continues =>
      have replied : first.answer command = second.answer command :=
        congrArg command.deed.reply (agree _ named)
      exact congrArg next replied

theorem effect_of_agree
    (within : Within names program) (agree : first.AgreeOn names second) :
    (program.effect first).AgreeOn names (program.effect second) := by
  cases within with
  | done result =>
      exact agree
  | note record next =>
      exact agree
  | @ask command next named continues =>
      intro name inside
      by_cases same : name = command.collection
      · subst same
        unfold Program.effect
        rw [Store.documents_execute_self, Store.documents_execute_self,
          agree _ named]
      · unfold Program.effect
        rw [Store.documents_execute_of_ne _ _ same,
          Store.documents_execute_of_ne _ _ same, agree name inside]

end Program.Within

/-! ## Pools of programs -/

/-- Programs that are under way over one store. -/
structure Pool (ι α : Type) where
  programs : ι → Program α
  store : Store

namespace Pool

variable {ι α : Type} [DecidableEq ι]

/-- One of the programs takes its next step. -/
def turn (pool : Pool ι α) (place : ι) : Pool ι α where
  programs other :=
    if other = place then (pool.programs place).advance pool.store
    else pool.programs other
  store := (pool.programs place).effect pool.store

/-- The pool after these turns, one after the other. -/
def after (pool : Pool ι α) (turns : List ι) : Pool ι α :=
  turns.foldl turn pool

theorem programs_turn_self (pool : Pool ι α) (place : ι) :
    (pool.turn place).programs place =
      (pool.programs place).advance pool.store :=
  if_pos rfl

theorem programs_turn_of_ne
    (pool : Pool ι α) {place other : ι} (different : other ≠ place) :
    (pool.turn place).programs other = pool.programs other :=
  if_neg different

theorem after_append (pool : Pool ι α) (first second : List ι) :
    pool.after (first ++ second) = (pool.after first).after second :=
  List.foldl_append

/-- A program that has ended stays so. -/
theorem done_after
    {pool : Pool ι α} {place : ι} {result : Except Failure α}
    (isDone : pool.programs place = .done result) (turns : List ι) :
    (pool.after turns).programs place = .done result := by
  induction turns generalizing pool with
  | nil =>
      exact isDone
  | cons other rest inductionHypothesis =>
      apply inductionHypothesis
      by_cases same : place = other
      · subst same
        rw [programs_turn_self, isDone]
        rfl
      · rw [programs_turn_of_ne pool same]
        exact isDone

/-- Every program keeps to collections with the names of its place. -/
def Confined (reach : ι → String → Prop) (pool : Pool ι α) : Prop :=
  ∀ place, (pool.programs place).Within (reach place)

theorem Confined.turn
    {reach : ι → String → Prop} {pool : Pool ι α}
    (confined : pool.Confined reach) (place : ι) :
    (pool.turn place).Confined reach := by
  intro other
  by_cases same : other = place
  · subst same
    rw [programs_turn_self]
    exact (confined other).advance pool.store
  · rw [programs_turn_of_ne pool same]
    exact confined other

theorem Confined.after
    {reach : ι → String → Prop} {pool : Pool ι α}
    (confined : pool.Confined reach) (turns : List ι) :
    (pool.after turns).Confined reach := by
  induction turns generalizing pool with
  | nil =>
      exact confined
  | cons place rest inductionHypothesis =>
      exact inductionHypothesis (confined.turn place)

/-- The programs at some places are equally far in both pools, and the stores agree
on the collections with some names. -/
structure Alike (own : ι → Bool) (names : String → Prop)
    (first second : Pool ι α) : Prop where
  programs :
    ∀ place, own place = true →
      first.programs place = second.programs place
  stores : first.store.AgreeOn names second.store

variable {own : ι → Bool} {names : String → Prop}
  {reach : ι → String → Prop} {first second : Pool ι α}

/-- A turn that is taken in both pools. -/
theorem Alike.turn_own
    (alike : Alike own names first second)
    {place : ι} (mine : own place = true)
    (within : (first.programs place).Within names) :
    Alike own names (first.turn place) (second.turn place) := by
  have same := alike.programs place mine
  constructor
  · intro other otherMine
    by_cases equal : other = place
    · subst equal
      rw [programs_turn_self, programs_turn_self, ← same]
      exact within.advance_of_agree alike.stores
    · rw [programs_turn_of_ne first equal, programs_turn_of_ne second equal]
      exact alike.programs other otherMine
  · unfold turn
    rw [← same]
    exact within.effect_of_agree alike.stores

/-- A turn of somebody else that is taken in the first pool only. -/
theorem Alike.turn_other
    (alike : Alike own names first second)
    {place : ι} (foreign : ¬ own place = true)
    (apart : (first.programs place).Within fun name => ¬ names name) :
    Alike own names (first.turn place) second := by
  constructor
  · intro other otherMine
    have different : other ≠ place := by
      rintro rfl
      exact foreign otherMine
    rw [programs_turn_of_ne first different]
    exact alike.programs other otherMine
  · intro name named
    rw [← alike.stores name named]
    exact apart.documents_effect first.store fun outside => outside named

/-- Some of the programs run with all the others as they run alone, when they keep to
collections that none of the others reaches. -/
theorem Alike.after
    (alike : Alike own names first second) (confined : first.Confined reach)
    (inside :
      ∀ place, own place = true → ∀ name, reach place name → names name)
    (outside :
      ∀ place, ¬ own place = true → ∀ name, reach place name → ¬ names name)
    (turns : List ι) :
    Alike own names (first.after turns) (second.after (turns.filter own)) := by
  -- The second pool moves only with the own turns; the first one with every turn,
  -- and what it does at a foreign turn is not seen by the own programs.
  induction turns generalizing first second with
  | nil =>
      exact alike
  | cons place rest inductionHypothesis =>
      by_cases mine : own place = true
      · have kept : (first.programs place).Within names :=
          (confined place).mono fun _ => inside place mine _
        have together := alike.turn_own mine kept
        rw [List.filter_cons_of_pos mine]
        exact inductionHypothesis together (confined.turn place)
      · have away : (first.programs place).Within fun name => ¬ names name :=
          (confined place).mono fun _ => outside place mine _
        have apart := alike.turn_other mine away
        rw [List.filter_cons_of_neg mine]
        exact inductionHypothesis apart (confined.turn place)

end Pool

end AccessControl
