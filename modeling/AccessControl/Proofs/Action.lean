import AccessControl.Action

/-!
# The grammar of action tokens

A token divides into a subject and a verb when it has exactly one colon and
neither half is empty.  The tokens that are read are the wildcard and those that
divide into halves which spell out no reserved word; `covers_iff_parse` says
which queries the target of a token takes in, in terms of the token itself.
Every other token is refused as reserved or as malformed, and only the wildcards
reach the words that stand for all: `parse_classified`.
-/

namespace AccessControl

namespace Action

theorem halves?_append
    {front back : List Char}
    (frontPlain : ':' ∉ front) (backPlain : ':' ∉ back) :
    halves? (front ++ ':' :: back) = some (front, back) := by
  have frontPasses : ∀ c ∈ front, (c != ':') = true := by
    intro c member
    have different : c ≠ ':' := fun equal => frontPlain (equal ▸ member)
    simpa using different
  unfold halves?
  rw [List.dropWhile_append_of_pos frontPasses,
    List.takeWhile_append_of_pos frontPasses]
  simp [backPlain]

theorem halves?_eq_some_iff {token front back : List Char} :
    halves? token = some (front, back) ↔
      token = front ++ ':' :: back ∧ ':' ∉ front ∧ ':' ∉ back := by
  constructor
  · intro found
    have whole := List.takeWhile_append_dropWhile (p := (· != ':')) (l := token)
    unfold halves? at found
    split at found
    · rename_i c rest dropped
      have stops : (c != ':') = false := by
        have head := List.head?_dropWhile_not (· != ':') token
        rw [dropped] at head
        exact head
      have colon : c = ':' := by simpa using stops
      split at found
      · cases found
      · rename_i plain
        simp only [Option.some.injEq, Prod.mk.injEq] at found
        obtain ⟨rfl, rfl⟩ := found
        refine ⟨?_, ?_, ?_⟩
        · rw [dropped, colon] at whole
          exact whole.symm
        · intro member
          have passes :=
            List.all_eq_true.mp List.all_takeWhile ':' member
          simp at passes
        · simpa using plain
    · cases found
  · rintro ⟨rfl, frontPlain, backPlain⟩
    exact halves?_append frontPlain backPlain

/-- The token is a subject and a verb with a colon between them, which is its only
one, and neither of the two is empty. -/
structure Divides (token subject verb : String) : Prop where
  token_eq : token = subject ++ ":" ++ verb
  subject_ne : subject ≠ ""
  verb_ne : verb ≠ ""
  subject_plain : ':' ∉ subject.toList
  verb_plain : ':' ∉ verb.toList

theorem Divides.halves?_eq
    {token subject verb : String} (divides : Divides token subject verb) :
    halves? token.toList = some (subject.toList, verb.toList) := by
  have spelled : token.toList = subject.toList ++ ':' :: verb.toList := by
    rw [divides.token_eq]
    simp
  rw [spelled]
  exact halves?_append divides.subject_plain divides.verb_plain

theorem Divides.ne_wildcard
    {token subject verb : String} (divides : Divides token subject verb) :
    token ≠ wildcard := by
  intro equal
  have halved := divides.halves?_eq
  rw [equal] at halved
  have whole : halves? wildcard.toList = none := by decide
  rw [whole] at halved
  cases halved

theorem divides_of_halves?
    {token : String} {front back : List Char}
    (halved : halves? token.toList = some (front, back))
    (frontFilled : front ≠ []) (backFilled : back ≠ []) :
    Divides token (String.ofList front) (String.ofList back) := by
  obtain ⟨spelled, frontPlain, backPlain⟩ := halves?_eq_some_iff.mp halved
  refine ⟨?_, ?_, ?_, ?_, ?_⟩
  · apply String.toList_injective
    simp [spelled]
  · intro empty
    exact frontFilled (by simpa using congrArg String.toList empty)
  · intro empty
    exact backFilled (by simpa using congrArg String.toList empty)
  · simpa using frontPlain
  · simpa using backPlain

theorem Divides.unique
    {token subject verb otherSubject otherVerb : String}
    (divides : Divides token subject verb)
    (again : Divides token otherSubject otherVerb) :
    subject = otherSubject ∧ verb = otherVerb := by
  have halved := divides.halves?_eq
  rw [again.halves?_eq, Option.some.injEq, Prod.mk.injEq] at halved
  exact
    ⟨(String.toList_injective halved.1).symm,
      (String.toList_injective halved.2).symm⟩

/-! ## What becomes of a token -/

/-- A token that divides is read unless one of its halves is a reserved word. -/
theorem parse_of_divides
    {token subject verb : String} (divides : Divides token subject verb) :
    parse token =
      if subject = allSubjects then .error ⟨token, .reserved allSubjects⟩
      else if verb = manage then .error ⟨token, .reserved manage⟩
      else .ok ⟨expand allSubjects subject, expand manage verb⟩ := by
  have frontFilled : subject.toList ≠ [] := by
    simpa using divides.subject_ne
  have backFilled : verb.toList ≠ [] := by
    simpa using divides.verb_ne
  unfold parse
  rw [if_neg divides.ne_wildcard, divides.halves?_eq]
  simp [frontFilled, backFilled]

/-- Any other token than the wildcard is malformed when it does not divide. -/
theorem parse_of_not_divides
    {token : String} (other : token ≠ wildcard)
    (whole : ∀ subject verb, ¬ Divides token subject verb) :
    parse token = .error ⟨token, .malformed⟩ := by
  unfold parse
  rw [if_neg other]
  cases halved : halves? token.toList with
  | none =>
      rfl
  | some halves =>
      obtain ⟨front, back⟩ := halves
      have unfilled : front = [] ∨ back = [] := by
        by_cases frontFilled : front = []
        · exact .inl frontFilled
        · by_cases backFilled : back = []
          · exact .inr backFilled
          · exact absurd
              (divides_of_halves? halved frontFilled backFilled)
              (whole _ _)
      have refused : (front.isEmpty || back.isEmpty) = true := by
        simpa using unfilled
      simp only [refused, if_true]

/-- What becomes of a token, with everything that was found out about it. -/
inductive Reading (token : String) : Except Fault Target → Prop
  | whole :
      token = wildcard → Reading token (.ok ⟨allSubjects, manage⟩)
  | divided {subject verb : String} :
      Divides token subject verb → subject ≠ allSubjects → verb ≠ manage →
        Reading token
          (.ok ⟨expand allSubjects subject, expand manage verb⟩)
  | reserved {subject verb : String} (word : String) :
      Divides token subject verb → subject = allSubjects ∨ verb = manage →
        Reading token (.error ⟨token, .reserved word⟩)
  | malformed :
      token ≠ wildcard → (∀ subject verb, ¬ Divides token subject verb) →
        Reading token (.error ⟨token, .malformed⟩)

theorem reading_parse (token : String) : Reading token (parse token) := by
  by_cases whole : token = wildcard
  · rw [whole]
    exact .whole rfl
  · by_cases divisible : ∃ subject verb, Divides token subject verb
    · obtain ⟨subject, verb, divides⟩ := divisible
      rw [parse_of_divides divides]
      by_cases subjectReserved : subject = allSubjects
      · rw [if_pos subjectReserved]
        exact .reserved _ divides (.inl subjectReserved)
      · rw [if_neg subjectReserved]
        by_cases verbReserved : verb = manage
        · rw [if_pos verbReserved]
          exact .reserved _ divides (.inr verbReserved)
        · rw [if_neg verbReserved]
          exact .divided divides subjectReserved verbReserved
    · simp only [not_exists] at divisible
      rw [parse_of_not_divides whole divisible]
      exact .malformed whole divisible

/-- A token is read when it is the wildcard, or divides into halves that are no
reserved words; then the wildcard stands for all of its half. -/
theorem parse_eq_ok_iff {token : String} {target : Target} :
    parse token = .ok target ↔
      (token = wildcard ∧ target = ⟨allSubjects, manage⟩) ∨
        ∃ subject verb,
          Divides token subject verb ∧
            subject ≠ allSubjects ∧ verb ≠ manage ∧
            target = ⟨expand allSubjects subject, expand manage verb⟩ := by
  constructor
  · intro read
    have reading := reading_parse token
    rw [read] at reading
    cases reading with
    | whole equal =>
        exact .inl ⟨equal, rfl⟩
    | divided divides subjectFree verbFree =>
        exact .inr ⟨_, _, divides, subjectFree, verbFree, rfl⟩
  · rintro (⟨rfl, rfl⟩ | ⟨subject, verb, divides, subjectFree, verbFree, rfl⟩)
    · rfl
    · rw [parse_of_divides divides, if_neg subjectFree, if_neg verbFree]

/-- The token is the wildcard, or divides into halves that are no reserved words. -/
def Readable (token : String) : Prop :=
  token = wildcard ∨
    ∃ subject verb,
      Divides token subject verb ∧ subject ≠ allSubjects ∧ verb ≠ manage

/-- The token divides, and one of its halves is a reserved word. -/
def SpellsReserved (token : String) : Prop :=
  ∃ subject verb,
    Divides token subject verb ∧ (subject = allSubjects ∨ verb = manage)

theorem SpellsReserved.not_readable
    {token : String} (spells : SpellsReserved token) :
    ¬ Readable token := by
  obtain ⟨subject, verb, divides, reserved⟩ := spells
  rintro (whole | ⟨otherSubject, otherVerb, again, subjectFree, verbFree⟩)
  · exact divides.ne_wildcard whole
  · obtain ⟨sameSubject, sameVerb⟩ := divides.unique again
    rcases reserved with subjectReserved | verbReserved
    · exact subjectFree (sameSubject ▸ subjectReserved)
    · exact verbFree (sameVerb ▸ verbReserved)

theorem exists_parse_eq_ok_iff {token : String} :
    (∃ target, parse token = .ok target) ↔ Readable token := by
  constructor
  · rintro ⟨target, read⟩
    rcases parse_eq_ok_iff.mp read with
      ⟨whole, -⟩ | ⟨subject, verb, divides, subjectFree, verbFree, -⟩
    · exact .inl whole
    · exact .inr ⟨subject, verb, divides, subjectFree, verbFree⟩
  · rintro (whole | ⟨subject, verb, divides, subjectFree, verbFree⟩)
    · exact ⟨_, parse_eq_ok_iff.mpr (.inl ⟨whole, rfl⟩)⟩
    · exact ⟨_, parse_eq_ok_iff.mpr
        (.inr ⟨subject, verb, divides, subjectFree, verbFree, rfl⟩)⟩

theorem exists_parse_eq_reserved_iff {token : String} :
    (∃ word, parse token = .error ⟨token, .reserved word⟩) ↔
      SpellsReserved token := by
  constructor
  · rintro ⟨word, refused⟩
    have reading := reading_parse token
    rw [refused] at reading
    cases reading with
    | reserved word divides reserved =>
        exact ⟨_, _, divides, reserved⟩
  · intro spells
    have reading := reading_parse token
    generalize result : parse token = answer at reading
    cases reading with
    | whole equal =>
        exact absurd (.inl equal) spells.not_readable
    | divided divides subjectFree verbFree =>
        exact absurd (.inr ⟨_, _, divides, subjectFree, verbFree⟩)
          spells.not_readable
    | reserved word divides reserved =>
        exact ⟨word, rfl⟩
    | malformed other undivided =>
        obtain ⟨subject, verb, divides, -⟩ := spells
        exact absurd divides (undivided subject verb)

theorem parse_eq_malformed_iff {token : String} :
    parse token = .error ⟨token, .malformed⟩ ↔
      ¬ Readable token ∧ ¬ SpellsReserved token := by
  rw [← exists_parse_eq_ok_iff, ← exists_parse_eq_reserved_iff]
  constructor
  · intro refused
    rw [refused]
    simp
  · rintro ⟨unread, unreserved⟩
    have reading := reading_parse token
    generalize result : parse token = answer at reading
    cases reading with
    | whole equal =>
        exact absurd ⟨_, result⟩ unread
    | divided divides subjectFree verbFree =>
        exact absurd ⟨_, result⟩ unread
    | reserved word divides reserved =>
        exact absurd ⟨_, result⟩ unreserved
    | malformed other undivided =>
        rfl

theorem token_of_parse_eq_error
    {token : String} {fault : Fault} (refused : parse token = .error fault) :
    fault.token = token := by
  have reading := reading_parse token
  rw [refused] at reading
  cases reading <;> rfl

/-- The token is about this verb on this subject type: it is the wildcard, or each
of its halves is the wildcard or the very word that is asked for.  A half that
spells out a reserved word makes the token void. -/
def Covers (token subjectType verb : String) : Prop :=
  token = wildcard ∨
    ∃ subject deed,
      Divides token subject deed ∧
        subject ≠ allSubjects ∧ deed ≠ manage ∧
        (subject = wildcard ∨ subject = subjectType) ∧
        (deed = wildcard ∨ deed = verb)

/-- What a half expands to stands for the words that the half itself stands for,
because the half is not the reserved word. -/
theorem expand_covers_iff
    {word half asked : String} (free : half ≠ word) :
    (expand word half = word ∨ expand word half = asked) ↔
      (half = wildcard ∨ half = asked) := by
  unfold expand
  by_cases whole : half = wildcard
  · simp [whole]
  · simp [whole, free]

theorem covers_iff_parse {token subjectType verb : String} :
    Covers token subjectType verb ↔
      ∃ target,
        parse token = .ok target ∧
          (target.subjectType = allSubjects ∨
            target.subjectType = subjectType) ∧
          (target.verb = manage ∨ target.verb = verb) := by
  constructor
  · rintro (whole | ⟨subject, deed, divides, subjectFree, deedFree, side, act⟩)
    · exact ⟨⟨allSubjects, manage⟩,
        parse_eq_ok_iff.mpr (Or.inl ⟨whole, rfl⟩), Or.inl rfl, Or.inl rfl⟩
    · exact ⟨⟨expand allSubjects subject, expand manage deed⟩,
        parse_eq_ok_iff.mpr
          (Or.inr ⟨subject, deed, divides, subjectFree, deedFree, rfl⟩),
        (expand_covers_iff subjectFree).mpr side,
        (expand_covers_iff deedFree).mpr act⟩
  · rintro ⟨target, read, side, act⟩
    rcases parse_eq_ok_iff.mp read with
      ⟨whole, -⟩ | ⟨subject, deed, divides, subjectFree, deedFree, rfl⟩
    · exact Or.inl whole
    · exact Or.inr
        ⟨subject, deed, divides, subjectFree, deedFree,
          (expand_covers_iff subjectFree).mp side,
          (expand_covers_iff deedFree).mp act⟩

section Expanded

variable {word half other : String}

theorem expand_of_ne (filled : half ≠ wildcard) : expand word half = half :=
  if_neg filled

/-- Only the wildcard expands to the word. -/
theorem expand_eq_word_iff (free : half ≠ word) :
    expand word half = word ↔ half = wildcard := by
  unfold expand
  by_cases whole : half = wildcard
  · simp [whole]
  · simp [whole, free]

theorem expand_eq_expand_iff (free : half ≠ word) (otherFree : other ≠ word) :
    expand word half = expand word other ↔ half = other := by
  constructor
  · intro same
    by_cases whole : half = wildcard
    · rw [(expand_eq_word_iff free).mpr whole, eq_comm] at same
      rw [whole, (expand_eq_word_iff otherFree).mp same]
    · rw [expand_of_ne whole] at same
      have otherFilled : other ≠ wildcard := by
        intro otherWhole
        rw [(expand_eq_word_iff otherFree).mpr otherWhole] at same
        exact free same
      rw [same, expand_of_ne otherFilled]
  · rintro rfl
    rfl

end Expanded

/-- The token for every verb on every subject that names both sides. -/
def wildcards : String := wildcard ++ ":" ++ wildcard

theorem divides_wildcards : Divides wildcards wildcard wildcard :=
  ⟨rfl, by decide, by decide, by decide, by decide⟩

section Targets

variable {token : String} {target : Target}

theorem subjectType_eq_allSubjects_iff (read : parse token = .ok target) :
    target.subjectType = allSubjects ↔
      token = wildcard ∨ ∃ verb, Divides token wildcard verb := by
  have reading := reading_parse token
  rw [read] at reading
  cases reading with
  | whole equal =>
      exact iff_of_true rfl (.inl equal)
  | divided divides subjectFree verbFree =>
      rw [expand_eq_word_iff subjectFree]
      constructor
      · rintro rfl
        exact .inr ⟨_, divides⟩
      · rintro (whole | ⟨verb, again⟩)
        · exact absurd whole divides.ne_wildcard
        · exact (divides.unique again).1

theorem verb_eq_manage_iff (read : parse token = .ok target) :
    target.verb = manage ↔
      token = wildcard ∨ ∃ subject, Divides token subject wildcard := by
  have reading := reading_parse token
  rw [read] at reading
  cases reading with
  | whole equal =>
      exact iff_of_true rfl (.inl equal)
  | divided divides subjectFree verbFree =>
      rw [expand_eq_word_iff verbFree]
      constructor
      · rintro rfl
        exact .inr ⟨_, divides⟩
      · rintro (whole | ⟨subject, again⟩)
        · exact absurd whole divides.ne_wildcard
        · exact (divides.unique again).2

/-- A half that is not the wildcard is kept as it is written. -/
theorem halves_kept
    (read : parse token = .ok target) {subject verb : String}
    (divides : Divides token subject verb) :
    (subject ≠ wildcard → target.subjectType = subject) ∧
      (verb ≠ wildcard → target.verb = verb) := by
  have reading := reading_parse token
  rw [read] at reading
  cases reading with
  | whole equal =>
      exact absurd equal divides.ne_wildcard
  | divided again _ _ =>
      obtain ⟨rfl, rfl⟩ := divides.unique again
      exact ⟨expand_of_ne, expand_of_ne⟩

/-- Of the tokens that divide, only the one of two wildcards stands for all. -/
theorem Divides.expands_to_all_iff
    {subject verb : String} (divides : Divides token subject verb)
    (subjectFree : subject ≠ allSubjects) (verbFree : verb ≠ manage) :
    Target.mk (expand allSubjects subject) (expand manage verb) =
        ⟨allSubjects, manage⟩ ↔
      token = wildcards := by
  rw [Target.mk.injEq, expand_eq_word_iff subjectFree,
    expand_eq_word_iff verbFree]
  constructor
  · rintro ⟨rfl, rfl⟩
    exact divides.token_eq
  · rintro rfl
    exact divides.unique divides_wildcards

/-- Two tokens stand for the same only when they are equal or are the two that stand for
all. -/
theorem target_eq_iff
    (read : parse token = .ok target) {other : String}
    {otherTarget : Target} (readOther : parse other = .ok otherTarget) :
    target = otherTarget ↔
      token = other ∨
        (token = wildcard ∧ other = wildcards) ∨
          (token = wildcards ∧ other = wildcard) := by
  have reading := reading_parse token
  have otherVerdict := reading_parse other
  rw [read] at reading
  rw [readOther] at otherVerdict
  cases reading with
  | whole equal =>
      cases otherVerdict with
      | whole otherEqual =>
          exact iff_of_true rfl (.inl (equal.trans otherEqual.symm))
      | divided divides subjectFree verbFree =>
          rw [eq_comm, divides.expands_to_all_iff subjectFree verbFree]
          have apart := divides.ne_wildcard
          subst equal
          simp [apart, apart.symm]
  | divided divides subjectFree verbFree =>
      cases otherVerdict with
      | whole otherEqual =>
          rw [divides.expands_to_all_iff subjectFree verbFree]
          have apart := divides.ne_wildcard
          subst otherEqual
          simp [apart]
      | divided otherDivides otherSubjectFree otherVerbFree =>
          rw [Target.mk.injEq,
            expand_eq_expand_iff subjectFree otherSubjectFree,
            expand_eq_expand_iff verbFree otherVerbFree]
          simp only [divides.ne_wildcard, otherDivides.ne_wildcard, false_and,
            and_false, or_false]
          constructor
          · rintro ⟨rfl, rfl⟩
            exact divides.token_eq.trans otherDivides.token_eq.symm
          · rintro rfl
            exact divides.unique otherDivides

end Targets

/-- Just the wildcard and the tokens that divide into halves without a reserved word are
read; those with a reserved word are refused for it, and all others as malformed, always
with the token itself.  What is read stands for all subjects or all verbs only by a
wildcard, and but for the two tokens that stand for all every one of them has a target of
its own. -/
theorem parse_classified (token : String) :
    ((∃ target, parse token = .ok target) ↔ Readable token) ∧
      ((∃ word, parse token = .error ⟨token, .reserved word⟩) ↔
        SpellsReserved token) ∧
      (parse token = .error ⟨token, .malformed⟩ ↔
        ¬ Readable token ∧ ¬ SpellsReserved token) ∧
      (∀ fault, parse token = .error fault → fault.token = token) ∧
      ∀ target, parse token = .ok target →
        (target.subjectType = allSubjects ↔
          token = wildcard ∨ ∃ verb, Divides token wildcard verb) ∧
        (target.verb = manage ↔
          token = wildcard ∨ ∃ subject, Divides token subject wildcard) ∧
        (∀ subject verb, Divides token subject verb →
          (subject ≠ wildcard → target.subjectType = subject) ∧
            (verb ≠ wildcard → target.verb = verb)) ∧
        ∀ other otherTarget, parse other = .ok otherTarget →
          (target = otherTarget ↔
            token = other ∨
              (token = wildcard ∧ other = wildcards) ∨
                (token = wildcards ∧ other = wildcard)) := by
  refine ⟨exists_parse_eq_ok_iff, exists_parse_eq_reserved_iff,
    parse_eq_malformed_iff, fun _ => token_of_parse_eq_error, ?_⟩
  intro target read
  exact
    ⟨subjectType_eq_allSubjects_iff read, verb_eq_manage_iff read,
      fun _ _ => halves_kept read, fun _ _ => target_eq_iff read⟩

/-- The token of two wildcards is read as the wildcard is, and no third one is. -/
theorem wildcards_read :
    parse wildcards = .ok ⟨allSubjects, manage⟩ ∧
      ∀ other, parse other = .ok ⟨allSubjects, manage⟩ →
        wildcards = other ∨ other = wildcard := by
  have read : parse wildcards = .ok ⟨allSubjects, manage⟩ :=
    parse_of_divides divides_wildcards
  refine ⟨read, fun other readOther => ?_⟩
  obtain ⟨-, -, -, -, classified⟩ := parse_classified wildcards
  obtain ⟨-, -, -, distinct⟩ := classified _ read
  rcases (distinct other _ readOther).mp rfl with same | ⟨whole, -⟩ | ⟨-, whole⟩
  · exact .inl same
  · exact absurd whole divides_wildcards.ne_wildcard
  · exact .inr whole

end Action

end AccessControl
