import AccessControl.Store.Program

/-!
# What programs give and leave

A run is looked at through its result and the store that it leaves, step by
step along the program.  Reading deeds leave every collection as it is, and so
do programs that are made of them: `ReadOnly.same`.
-/

namespace AccessControl

namespace Store

/-- Every collection has the same documents in both stores. -/
def Same (first second : Store) : Prop :=
  ∀ name, first.documents name = second.documents name

theorem Same.refl (store : Store) : store.Same store :=
  fun _ => rfl

theorem Same.trans
    {first second third : Store}
    (left : first.Same second) (right : second.Same third) :
    first.Same third :=
  fun name => (left name).trans (right name)

/-- Giving a collection the documents that it has changes nothing. -/
theorem write_documents_same (store : Store) (name : String) :
    (store.write name (store.documents name)).Same store := by
  intro other
  by_cases equal : other = name
  · rw [equal, documents_write_self]
  · rw [documents_write_of_ne store equal]

end Store

namespace Deed

/-- The deed leaves the documents as they are. -/
def Reads (deed : Deed) : Prop :=
  ∀ documents, deed.change documents = documents

theorem reads_findOne (filter : Filter) : (findOne filter).Reads :=
  fun _ => rfl

theorem reads_find (filter : Filter) : (find filter).Reads :=
  fun _ => rfl

theorem reads_findSorted (field : String) : (findSorted field).Reads :=
  fun _ => rfl

end Deed

theorem Store.execute_same_of_reads
    {deed : Deed} (reads : deed.Reads) (collection : String)
    (store : Store) :
    (store.execute ⟨collection, deed⟩).Same store := by
  unfold Store.execute
  rw [reads]
  exact store.write_documents_same collection

namespace Store.Same

variable {first second : Store}

theorem write
    (same : first.Same second) (name : String) (documents : List Fields) :
    (first.write name documents).Same (second.write name documents) := by
  intro other
  by_cases written : other = name
  · rw [written, documents_write_self, documents_write_self]
  · rw [documents_write_of_ne _ written, documents_write_of_ne _ written,
      same]

/-- A command does the same to stores with the same documents. -/
theorem execute (same : first.Same second) (command : Command) :
    (first.execute command).Same (second.execute command) := by
  unfold Store.execute
  rw [same]
  exact same.write _ _

end Store.Same

/-- A chain of results is good only when all of its parts are. -/
theorem exists_of_bind_eq_ok
    {ε α β : Type} {first : Except ε α} {rest : α → Except ε β} {answer : β}
    (good : (first >>= rest) = .ok answer) :
    ∃ value, first = .ok value ∧ rest value = .ok answer := by
  cases first with
  | error failure =>
      cases good
  | ok value =>
      exact ⟨value, rfl, good⟩

/-- A chain of results fails where its first part does, or behind it. -/
theorem bind_eq_error_iff
    {ε α β : Type} {x : Except ε α} {f : α → Except ε β} {error : ε} :
    x >>= f = .error error ↔
      x = .error error ∨ ∃ value, x = .ok value ∧ f value = .error error := by
  cases x with
  | error fault =>
      constructor
      · intro same
        cases same
        exact .inl rfl
      · rintro (same | ⟨value, absent, -⟩)
        · cases same
          rfl
        · cases absent
  | ok value =>
      refine ⟨fun same => .inr ⟨value, rfl, same⟩, ?_⟩
      rintro (absent | ⟨value, present, same⟩)
      · cases absent
      · cases present
        exact same

theorem exists_of_mapError_eq_ok
    {ε δ α : Type} {result : Except ε α} {f : ε → δ} {answer : α}
    (good : result.mapError f = .ok answer) :
    result = .ok answer := by
  cases result with
  | error failure =>
      cases good
  | ok value =>
      cases good
      rfl

namespace Program

variable {α β : Type} (interfere : Command → Store → Store)

/-- How a program ends, and the store that it leaves. -/
def finish (program : Program α) (store : Store) : Except Failure α × Store :=
  ((run interfere program store).result, (run interfere program store).store)

@[simp]
theorem finish_done (result : Except Failure α) (store : Store) :
    finish interfere (done result) store = (result, store) :=
  rfl

@[simp]
theorem finish_note (record : LogRecord) (next : Program α) (store : Store) :
    finish interfere (note record next) store = finish interfere next store :=
  rfl

@[simp]
theorem finish_ask
    (command : Command) (next : command.deed.Reply → Program α)
    (store : Store) :
    finish interfere (ask command next) store =
      finish interfere (next ((interfere command store).answer command))
        ((interfere command store).execute command) :=
  rfl

@[simp]
theorem finish_pure (value : α) (store : Store) :
    finish interfere (pure value) store = (.ok value, store) :=
  rfl

@[simp]
theorem finish_fail (failure : Failure) (store : Store) :
    finish interfere (fail failure : Program α) store =
      (.error failure, store) :=
  rfl

@[simp]
theorem finish_refuse (refusal : Refusal) (store : Store) :
    finish interfere (refuse refusal : Program α) store =
      (.error (.refused refusal), store) :=
  rfl

@[simp]
theorem finish_log (record : LogRecord) (store : Store) :
    finish interfere (log record) store = (.ok (), store) :=
  rfl

@[simp]
theorem finish_ofExcept (result : Except Failure α) (store : Store) :
    finish interfere (ofExcept result) store = (result, store) :=
  rfl

@[simp]
theorem finish_query (collection : String) (deed : Deed) (store : Store) :
    finish interfere (query collection deed) store =
      (.ok ((interfere ⟨collection, deed⟩ store).answer ⟨collection, deed⟩),
        (interfere ⟨collection, deed⟩ store).execute ⟨collection, deed⟩) :=
  rfl

@[simp]
theorem finish_logAll (records : List LogRecord) (store : Store) :
    finish interfere (logAll records) store = (.ok (), store) := by
  induction records with
  | nil =>
      rfl
  | cons record rest inductionHypothesis =>
      exact inductionHypothesis

/-- A program goes on from what its first part gives and leaves, and ends where that
fails. -/
theorem finish_bind
    (program : Program α) (rest : α → Program β) (store : Store) :
    finish interfere (program >>= rest) store =
      match finish interfere program store with
      | (.ok value, left) => finish interfere (rest value) left
      | (.error failure, left) => (.error failure, left) := by
  induction program generalizing store with
  | done result =>
      cases result <;> rfl
  | note record next inductionHypothesis =>
      exact inductionHypothesis store
  | ask command next inductionHypothesis =>
      exact inductionHypothesis _ _

variable {interfere}

theorem finish_bind_of_ok
    {program : Program α} {rest : α → Program β}
    {store left : Store} {value : α}
    (first : finish interfere program store = (.ok value, left)) :
    finish interfere (program >>= rest) store =
      finish interfere (rest value) left := by
  rw [finish_bind, first]

theorem finish_bind_of_error
    {program : Program α} {rest : α → Program β}
    {store left : Store} {failure : Failure}
    (first : finish interfere program store = (.error failure, left)) :
    finish interfere (program >>= rest) store = (.error failure, left) := by
  rw [finish_bind, first]

/-- A program with an answer got past its first part. -/
theorem exists_of_finish_bind
    {program : Program α} {rest : α → Program β}
    {store last : Store} {answer : β}
    (ended :
      finish interfere (program >>= rest) store = (.ok answer, last)) :
    ∃ value left,
      finish interfere program store = (.ok value, left) ∧
        finish interfere (rest value) left = (.ok answer, last) := by
  rw [finish_bind] at ended
  cases first : finish interfere program store with
  | mk result left =>
      rw [first] at ended
      cases result with
      | error failure =>
          cases ended
      | ok value =>
          exact ⟨value, left, rfl, ended⟩

theorem finish_map (program : Program α) (f : α → β) (store : Store) :
    finish interfere (f <$> program) store =
      ((finish interfere program store).1.map f,
        (finish interfere program store).2) := by
  have mapped : f <$> program = program >>= fun value => pure (f value) := rfl
  rw [mapped, finish_bind]
  cases finish interfere program store with
  | mk result left =>
      cases result <;> rfl

/-- Where nobody interferes, a deed is answered from the documents that the
collection has. -/
theorem finish_query_undisturbed
    (collection : String) (deed : Deed) (store : Store) :
    finish undisturbed (query collection deed) store =
      (.ok (deed.reply (store.documents collection)),
        store.execute ⟨collection, deed⟩) :=
  rfl

theorem finish_query_of_reads
    {deed : Deed} (reads : deed.Reads) (collection : String)
    (store : Store) :
    ∃ left,
      left.Same store ∧
        finish undisturbed (query collection deed) store =
          (.ok (deed.reply (store.documents collection)), left) :=
  ⟨_, Store.execute_same_of_reads reads collection store, rfl⟩

/-! ## What programs ask of the store -/

/-- All commands of the program are allowed. -/
inductive Uses (allowed : Command → Prop) {α : Type} : Program α → Prop
  | done (result : Except Failure α) : Uses allowed (done result)
  | note (record : LogRecord) {next : Program α} :
      Uses allowed next → Uses allowed (note record next)
  | ask {command : Command} {next : command.deed.Reply → Program α} :
      allowed command → (∀ reply, Uses allowed (next reply)) →
        Uses allowed (ask command next)

namespace Uses

variable {allowed : Command → Prop}

theorem pure (value : α) : Uses allowed (pure value : Program α) :=
  .done (.ok value)

theorem fail (failure : Failure) : Uses allowed (fail failure : Program α) :=
  .done (.error failure)

theorem refuse (refusal : Refusal) :
    Uses allowed (refuse refusal : Program α) :=
  .done (.error (.refused refusal))

theorem ofExcept (result : Except Failure α) : Uses allowed (ofExcept result) :=
  .done result

theorem log (record : LogRecord) : Uses allowed (log record) :=
  .note record (.done (.ok ()))

theorem logAll (records : List LogRecord) : Uses allowed (logAll records) := by
  induction records with
  | nil =>
      exact .done (.ok ())
  | cons record rest inductionHypothesis =>
      exact .note record inductionHypothesis

theorem query
    {collection : String} {deed : Deed}
    (allows : allowed ⟨collection, deed⟩) :
    Uses allowed (query collection deed) :=
  .ask allows fun reply => .done (.ok reply)

theorem bind
    {program : Program α} {rest : α → Program β}
    (first : Uses allowed program) (next : ∀ value, Uses allowed (rest value)) :
    Uses allowed (program >>= rest) := by
  induction first with
  | done result =>
      cases result with
      | error failure =>
          exact .done (.error failure)
      | ok value =>
          exact next value
  | note record _ inductionHypothesis =>
      exact .note record inductionHypothesis
  | ask allows _ inductionHypothesis =>
      exact .ask allows inductionHypothesis

theorem map
    {program : Program α} (uses : Uses allowed program) (f : α → β) :
    Uses allowed (f <$> program) :=
  uses.bind fun value => .pure (f value)

theorem mono
    {others : Command → Prop} {program : Program α}
    (uses : Uses allowed program)
    (wider : ∀ command, allowed command → others command) :
    Uses others program := by
  induction uses with
  | done result =>
      exact .done result
  | note record _ inductionHypothesis =>
      exact .note record inductionHypothesis
  | ask allows _ inductionHypothesis =>
      exact .ask (wider _ allows) inductionHypothesis

end Uses

/-- All deeds of the program are reading ones. -/
abbrev ReadOnly (program : Program α) : Prop :=
  program.Uses fun command => command.deed.Reads

/-- Where nobody else changes the store, a program that only reads leaves every
collection as it was. -/
theorem ReadOnly.same
    {program : Program α} (readOnly : ReadOnly program) (store : Store) :
    (finish undisturbed program store).2.Same store := by
  induction readOnly generalizing store with
  | done result =>
      exact Store.Same.refl store
  | note record _ inductionHypothesis =>
      exact inductionHypothesis store
  | ask reads _ inductionHypothesis =>
      exact (inductionHypothesis _ _).trans
        (Store.execute_same_of_reads reads _ store)

/-- From stores with the same documents a program gives the same, and leaves stores with
the same documents. -/
theorem finish_of_same
    (program : Program α) {first second : Store}
    (same : first.Same second) :
    (finish undisturbed program first).1 =
        (finish undisturbed program second).1 ∧
      (finish undisturbed program first).2.Same
        (finish undisturbed program second).2 := by
  induction program generalizing first second with
  | done result =>
      exact ⟨rfl, same⟩
  | note record next inductionHypothesis =>
      exact inductionHypothesis same
  | ask command next inductionHypothesis =>
      have answered : first.answer command = second.answer command := by
        unfold Store.answer
        rw [same]
      rw [finish_ask, finish_ask]
      simp only [undisturbed, answered]
      exact inductionHypothesis _ (same.execute command)

end Program

end AccessControl
