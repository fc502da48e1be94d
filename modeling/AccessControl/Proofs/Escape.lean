import AccessControl.Proofs.Expiry
import AccessControl.Proofs.Logging

/-!
# Tokens that are not even rejected

A token gives its claims or is rejected, but for the ones that stray: those with a
time that is neither a number nor a text, those that are nested too deep, and those
that no key or no clock can be found for.  A request with a rejected token is answered
with the status 401, and one with a token that strays with 500: `strays_iff`.
-/

namespace AccessControl

namespace Token

/-- A claim that is no time, without being rejected for it. -/
inductive Timeless : Value → Failure → Prop
  | null : Timeless .null (.claimNotNumeric .null)
  | list (items : List Value) :
      Timeless (.list items) (.claimNotNumeric (.list items))
  | record (fields : Fields) :
      Timeless (.record fields) (.claimNotNumeric (.record fields))
  | id (id : ObjectId) : Timeless (.id id) (.claimNotNumeric (.id id))
  | date (date : Timestamp) :
      Timeless (.date date) (.claimNotNumeric (.date date))
  | infinite {d : Double}
      (extended :
        d.extended = .positiveInfinity ∨ d.extended = .negativeInfinity) :
      Timeless (.number (.double d)) .claimInfinite

theorem wholeNumber_fails_iff {claim : Value} {failure : Failure} :
    wholeNumber claim = .error failure ∧ failure ≠ rejected ↔
      Timeless claim failure := by
  constructor
  · rintro ⟨fails, strays⟩
    cases claim with
    | null =>
        cases fails
        exact .null
    | list items =>
        cases fails
        exact .list items
    | record fields =>
        cases fails
        exact .record fields
    | id id =>
        cases fails
        exact .id id
    | date date =>
        cases fails
        exact .date date
    | boolean b =>
        cases fails
    | text s =>
        unfold wholeNumber at fails
        simp only at fails
        split at fails
        · cases fails
        · cases fails
          exact absurd rfl strays
    | number n =>
        cases n with
        | integer n =>
            cases fails
        | double d =>
            unfold wholeNumber Number.truncated at fails
            cases extended : d.extended with
            | nan =>
                simp only [extended] at fails
                cases fails
                exact absurd rfl strays
            | finite scaled =>
                simp only [extended] at fails
                cases fails
            | positiveInfinity =>
                simp only [extended] at fails
                cases fails
                exact .infinite (.inl extended)
            | negativeInfinity =>
                simp only [extended] at fails
                cases fails
                exact .infinite (.inr extended)
  · intro timeless
    cases timeless with
    | infinite extended =>
        refine ⟨?_, nofun⟩
        unfold wholeNumber Number.truncated
        rcases extended with extended | extended <;> simp [extended]
    | _ =>
        exact ⟨rfl, nofun⟩

section Checks

variable {claims : Fields} {name : String}
  {accepts : Int → Except Failure Bool} {failure : Failure}

theorem checkTime_ok_iff :
    checkTime claims name accepts = .ok () ↔
      ∀ claim, claims.get? name = some claim →
        ∃ n, wholeNumber claim = .ok n ∧ accepts n = .ok true := by
  refine ⟨fun passes claim found => ?_, checkTime_whole⟩
  unfold checkTime at passes
  rw [found] at passes
  obtain ⟨n, whole, passes⟩ := exists_of_bind_eq_ok passes
  obtain ⟨accepted, same, passes⟩ := exists_of_bind_eq_ok passes
  cases accepted with
  | false =>
      cases passes
  | true =>
      exact ⟨n, whole, same⟩

theorem checkTime_fails_iff :
    checkTime claims name accepts = .error failure ∧ failure ≠ rejected ↔
      ∃ claim, claims.get? name = some claim ∧
        (Timeless claim failure ∨
          ∃ n, wholeNumber claim = .ok n ∧
            accepts n = .error failure ∧ failure ≠ rejected) := by
  unfold checkTime
  cases found : claims.get? name with
  | none =>
      simp
  | some claim =>
      simp only [bind_eq_error_iff, ← wholeNumber_fails_iff,
        Option.some.injEq, exists_eq_left']
      constructor
      · rintro ⟨fails | ⟨n, whole, fails | ⟨accepted, -, fails⟩⟩, strays⟩
        · exact .inl ⟨fails, strays⟩
        · exact .inr ⟨n, whole, fails, strays⟩
        · cases accepted with
          | false =>
              cases fails
              exact absurd rfl strays
          | true =>
              cases fails
      · rintro (⟨fails, strays⟩ | ⟨n, whole, fails, strays⟩)
        · exact ⟨.inl fails, strays⟩
        · exact ⟨.inr ⟨n, whole, .inl fails⟩, strays⟩

theorem eq_rejected_of_checkClaim
    {accepts : Value → Bool}
    (fails : checkClaim claims name accepts = .error failure) :
    failure = rejected := by
  unfold checkClaim at fails
  split at fails
  · cases fails
  · split at fails
    · cases fails
    · cases fails
      rfl

/-- The checks that are no times only ever reject. -/
theorem eq_rejected_of_otherChecks
    (fails :
      (do
        checkClaim claims "aud" fun _ => false
        checkClaim claims "sub" isText
        checkClaim claims "jti" isText
        checkClaim claims "at_hash" fun _ => false) =
        .error failure) :
    failure = rejected := by
  rcases bind_eq_error_iff.mp fails with fails | ⟨⟨⟩, -, fails⟩
  · exact eq_rejected_of_checkClaim fails
  rcases bind_eq_error_iff.mp fails with fails | ⟨⟨⟩, -, fails⟩
  · exact eq_rejected_of_checkClaim fails
  rcases bind_eq_error_iff.mp fails with fails | ⟨⟨⟩, -, fails⟩
  · exact eq_rejected_of_checkClaim fails
  exact eq_rejected_of_checkClaim fails

end Checks

/-- What keeps a claim from being compared with the time: it is no time, or there is
none now. -/
inductive Stuck (now : Except Clock.Fault Timestamp) (claim : Value) :
    Failure → Prop
  | timeless {failure : Failure} (timeless : Timeless claim failure) :
      Stuck now claim failure
  | clock {n : Int} {fault : Clock.Fault} (whole : wholeNumber claim = .ok n)
      (stopped : now = .error fault) : Stuck now claim (.clock fault)

/-- The claim is missing, or stands for a whole number with the property. -/
def Holds (claims : Fields) (name : String) (property : Int → Prop) : Prop :=
  ∀ claim, claims.get? name = some claim →
    ∃ n, wholeNumber claim = .ok n ∧ property n

/-- The first of the times among the claims that is not accepted is not rejected
either. -/
inductive Obstructs (now : Except Clock.Fault Timestamp) (claims : Fields) :
    Failure → Prop
  | issued {claim : Value} {failure : Failure}
      (found : claims.get? "iat" = some claim)
      (timeless : Timeless claim failure) : Obstructs now claims failure
  | started {claim : Value} {failure : Failure}
      (issued : Holds claims "iat" fun _ => True)
      (found : claims.get? "nbf" = some claim)
      (stuck : Stuck now claim failure) : Obstructs now claims failure
  | expires {claim : Value} {failure : Failure}
      (issued : Holds claims "iat" fun _ => True)
      (started :
        Holds claims "nbf" fun start =>
          ∃ time, now = .ok time ∧ start ≤ time.seconds)
      (found : claims.get? "exp" = some claim)
      (stuck : Stuck now claim failure) : Obstructs now claims failure

section Compared

variable {now : Except Clock.Fault Timestamp} {claims : Fields}
  {name : String} {relation : Int → Int → Bool} {failure : Failure}

theorem compared_ok_iff {n : Int} :
    compared now relation n = .ok true ↔
      ∃ time, now = .ok time ∧ relation time.seconds n = true := by
  unfold compared
  cases now with
  | error fault =>
      simp [Except.mapError, Except.map]
  | ok time =>
      simp [Except.mapError, Except.map]

theorem compared_fails_iff {n : Int} :
    compared now relation n = .error failure ∧ failure ≠ rejected ↔
      ∃ fault, now = .error fault ∧ failure = .clock fault := by
  unfold compared
  cases now with
  | error fault =>
      simp only [Except.mapError, Except.map, Except.error.injEq,
        exists_eq_left']
      constructor
      · rintro ⟨rfl, -⟩
        rfl
      · rintro rfl
        exact ⟨rfl, nofun⟩
  | ok time =>
      simp [Except.mapError, Except.map]

theorem checkTime_compared_fails_iff :
    checkTime claims name (compared now relation) = .error failure ∧
        failure ≠ rejected ↔
      ∃ claim, claims.get? name = some claim ∧ Stuck now claim failure := by
  rw [checkTime_fails_iff]
  refine exists_congr fun claim => and_congr_right fun _ => ?_
  simp only [compared_fails_iff]
  constructor
  · rintro (timeless | ⟨n, whole, fault, stopped, rfl⟩)
    · exact .timeless timeless
    · exact .clock whole stopped
  · rintro (timeless | ⟨whole, stopped⟩)
    · exact .inl timeless
    · exact .inr ⟨_, whole, _, stopped, rfl⟩

end Compared

/-- The checks fail just where one of the times obstructs them. -/
theorem check_fails_iff
    {now : Except Clock.Fault Timestamp} {claims : Fields}
    {failure : Failure} :
    check now claims = .error failure ∧ failure ≠ rejected ↔
      Obstructs now claims failure := by
  have issued :
      checkTime claims "iat" (fun _ => .ok true) = .ok () ↔
        Holds claims "iat" fun _ => True := by
    rw [checkTime_ok_iff]
    simp only [and_true, Holds]
  have started :
      checkTime claims "nbf"
            (compared now fun time start => start ≤ time) =
          .ok () ↔
        Holds claims "nbf" fun start =>
          ∃ time, now = .ok time ∧ start ≤ time.seconds := by
    rw [checkTime_ok_iff]
    simp only [compared_ok_iff, decide_eq_true_eq, Holds]
  unfold check
  constructor
  · rintro ⟨fails, strays⟩
    rcases bind_eq_error_iff.mp fails with fails | ⟨⟨⟩, passes, fails⟩
    · obtain ⟨claim, found, timeless | ⟨n, -, absent, -⟩⟩ :=
        checkTime_fails_iff.mp ⟨fails, strays⟩
      · exact .issued found timeless
      · cases absent
    have first := issued.mp passes
    rcases bind_eq_error_iff.mp fails with fails | ⟨⟨⟩, passes, fails⟩
    · obtain ⟨claim, found, stuck⟩ :=
        checkTime_compared_fails_iff.mp ⟨fails, strays⟩
      exact .started first found stuck
    have second := started.mp passes
    rcases bind_eq_error_iff.mp fails with fails | ⟨⟨⟩, -, fails⟩
    · obtain ⟨claim, found, stuck⟩ :=
        checkTime_compared_fails_iff.mp ⟨fails, strays⟩
      exact .expires first second found stuck
    exact absurd (eq_rejected_of_otherChecks fails) strays
  · intro obstructs
    cases obstructs with
    | issued found timeless =>
        obtain ⟨fails, strays⟩ :=
          checkTime_fails_iff.mpr ⟨_, found, .inl timeless⟩
        exact ⟨bind_eq_error_iff.mpr (.inl fails), strays⟩
    | started first found stuck =>
        obtain ⟨fails, strays⟩ :=
          checkTime_compared_fails_iff.mpr ⟨_, found, stuck⟩
        refine
          ⟨bind_eq_error_iff.mpr (.inr ⟨(), issued.mpr first, ?_⟩), strays⟩
        exact bind_eq_error_iff.mpr (.inl fails)
    | expires first second found stuck =>
        obtain ⟨fails, strays⟩ :=
          checkTime_compared_fails_iff.mpr ⟨_, found, stuck⟩
        refine
          ⟨bind_eq_error_iff.mpr (.inr ⟨(), issued.mpr first, ?_⟩), strays⟩
        refine bind_eq_error_iff.mpr (.inr ⟨(), started.mpr second, ?_⟩)
        exact bind_eq_error_iff.mpr (.inl fails)

/-! ## Tokens that stray -/

/-- A segment holds a text whose lists or records are nested deeper than this. -/
def Deep (depth : Nat) (segment : List UInt8) (isList : Bool) : Prop :=
  ∃ text, String.fromUTF8? ⟨segment.toArray⟩ = some text ∧
    Json.read text depth = .error (.tooDeep isList)

theorem recordOf_fails_iff
    {depth : Nat} {segment : List UInt8} {failure : Failure} :
    recordOf depth segment = .error failure ∧ failure ≠ rejected ↔
      ∃ isList, Deep depth segment isList ∧ failure = .tooDeep isList := by
  unfold recordOf Deep
  cases decoded : String.fromUTF8? ⟨segment.toArray⟩ with
  | none =>
      constructor
      · rintro ⟨fails, strays⟩
        cases fails
        exact absurd rfl strays
      · rintro ⟨isList, ⟨text, absent, -⟩, -⟩
        cases absent
  | some text =>
      simp only [found, bind, Except.bind, Option.some.injEq, exists_eq_left']
      constructor
      · rintro ⟨fails, strays⟩
        cases read : Json.read text depth with
        | ok value =>
            rw [read] at fails
            cases value <;> cases fails <;> exact absurd rfl strays
        | error fault =>
            rw [read] at fails
            cases fault with
            | tooDeep isList =>
                cases fails
                exact ⟨isList, rfl, rfl⟩
            | malformed place =>
                cases fails
                exact absurd rfl strays
            | tooManyDigits =>
                cases fails
                exact absurd rfl strays
      · rintro ⟨isList, deep, rfl⟩
        rw [deep]
        refine ⟨rfl, fun same => ?_⟩
        cases same

/-- A token in three segments, whose header names the configured algorithm. -/
structure Addressed (signer : Signer) (token : List UInt8) where
  input : List UInt8
  front : List UInt8
  back : List UInt8
  last : List UInt8
  head : List UInt8
  content : List UInt8
  given : List UInt8
  fields : Fields
  outer : splitLast? token = some (input, last)
  inner : splitFirst? input = some (front, back)
  headed : Base64.decode? front = some head
  headRead : recordOf signer.depth head = .ok fields
  filled : Base64.decode? back = some content
  signed : Base64.decode? last = some given
  named : namesAlgorithm signer ((fields.get? "alg").getD .null) = true

namespace Addressed

variable {signer : Signer} {token : List UInt8}

/-- Whether the signature fits a key that the secret names. -/
def verdict (addressed : Addressed signer token) : Except Key.Fault Bool :=
  Key.verifies signer.depth ((addressed.fields.get? "alg").getD .null)
    signer.secret fun member secret =>
      addressed.given = Hmac.sign member secret addressed.input

theorem verified (addressed : Addressed signer token) :
    Token.verified signer token =
      settled (recordOf signer.depth addressed.content) addressed.verdict := by
  unfold Token.verified
  simp only [addressed.outer, addressed.inner, addressed.headed,
    addressed.headRead, addressed.filled, addressed.signed, addressed.named,
    found, bind, Except.bind, Bool.not_true, Bool.false_eq_true, if_false]
  rfl

end Addressed

/-- The header of a token is nested deeper than this. -/
def HasDeepHeader (depth : Nat) (token : List UInt8) (isList : Bool) : Prop :=
  ∃ input front back last head,
    splitLast? token = some (input, last) ∧
      splitFirst? input = some (front, back) ∧
      Base64.decode? front = some head ∧ Deep depth head isList

theorem verified_of_hasDeepHeader
    {signer : Signer} {token : List UInt8} {isList : Bool}
    (deep : HasDeepHeader signer.depth token isList) :
    verified signer token = .error (.tooDeep isList) := by
  obtain ⟨input, front, back, last, head, outer, inner, headed, deep⟩ := deep
  obtain ⟨fails, -⟩ := recordOf_fails_iff.mpr ⟨isList, deep, rfl⟩
  unfold verified
  simp only [outer, inner, headed, fails, found, bind, Except.bind]

theorem exists_of_found_bind
    {α β : Type} {value? : Option α} {f : α → Except Failure β}
    (strays : found value? >>= f ≠ .error rejected) :
    ∃ value, value? = some value ∧ f value ≠ .error rejected := by
  cases value? with
  | none =>
      exact absurd rfl strays
  | some value =>
      exact ⟨value, rfl, strays⟩

/-- A token that is not addressed is rejected, unless its header is too deep. -/
theorem verified_cases (signer : Signer) (token : List UInt8) :
    Nonempty (Addressed signer token) ∨
      (∃ isList, HasDeepHeader signer.depth token isList) ∨
      verified signer token = .error rejected := by
  by_cases strays : verified signer token = .error rejected
  · exact .inr (.inr strays)
  obtain ⟨⟨input, last⟩, outer, strays⟩ := exists_of_found_bind strays
  obtain ⟨⟨front, back⟩, inner, strays⟩ := exists_of_found_bind strays
  obtain ⟨head, headed, strays⟩ := exists_of_found_bind strays
  cases headRead : recordOf signer.depth head with
  | error failure =>
      have unrejected : failure ≠ rejected := by
        rintro rfl
        rw [headRead] at strays
        exact strays rfl
      obtain ⟨isList, deep, -⟩ :=
        recordOf_fails_iff.mp ⟨headRead, unrejected⟩
      exact
        .inr (.inl
          ⟨isList, input, front, back, last, head, outer, inner, headed, deep⟩)
  | ok fields =>
      rw [headRead] at strays
      obtain ⟨content, filled, strays⟩ := exists_of_found_bind strays
      obtain ⟨given, signed, strays⟩ := exists_of_found_bind strays
      have named :
          namesAlgorithm signer ((fields.get? "alg").getD .null) = true := by
        by_contra unnamed
        simp [unnamed] at strays
      exact
        .inl
          ⟨⟨input, front, back, last, head, content, given, fields, outer,
            inner, headed, headRead, filled, signed, named⟩⟩

/-- A token that neither gives its claims nor is rejected. -/
inductive Strays (signer : Signer) (now : Except Clock.Fault Timestamp)
    (token : List UInt8) : Failure → Prop
  | header {isList : Bool} (deep : HasDeepHeader signer.depth token isList) :
      Strays signer now token (.tooDeep isList)
  | key (addressed : Addressed signer token) {fault : Key.Fault}
      (keyless : addressed.verdict = .error fault) :
      Strays signer now token (.key fault)
  | content (addressed : Addressed signer token) {isList : Bool}
      (genuine : addressed.verdict = .ok true)
      (deep : Deep signer.depth addressed.content isList) :
      Strays signer now token (.tooDeep isList)
  | claims (addressed : Addressed signer token) {claims : Fields}
      {failure : Failure} (genuine : addressed.verdict = .ok true)
      (read : recordOf signer.depth addressed.content = .ok claims)
      (obstructs : Obstructs now claims failure) :
      Strays signer now token failure

theorem Timeless.unrefused
    {claim : Value} {failure : Failure} (timeless : Timeless claim failure)
    (refusal : Refusal) : failure ≠ .refused refusal := by
  cases timeless <;> nofun

theorem Stuck.unrefused
    {now : Except Clock.Fault Timestamp} {claim : Value} {failure : Failure}
    (stuck : Stuck now claim failure) (refusal : Refusal) :
    failure ≠ .refused refusal := by
  cases stuck with
  | timeless timeless =>
      exact timeless.unrefused refusal
  | clock _ _ =>
      nofun

section Strays

variable {signer : Signer} {now : Except Clock.Fault Timestamp}
  {token : List UInt8} {failure : Failure}

/-- Nothing that strays is a refusal. -/
theorem Strays.unrefused
    (strays : Strays signer now token failure) (refusal : Refusal) :
    failure ≠ .refused refusal := by
  cases strays with
  | header deep =>
      nofun
  | key addressed keyless =>
      nofun
  | content addressed genuine deep =>
      nofun
  | claims addressed genuine read obstructs =>
      cases obstructs with
      | issued found timeless =>
          exact timeless.unrefused refusal
      | started _ found stuck =>
          exact stuck.unrefused refusal
      | expires _ _ found stuck =>
          exact stuck.unrefused refusal

theorem strays_of_claimsOf
    (fails : claimsOf signer now token = .error failure)
    (unrejected : failure ≠ rejected) : Strays signer now token failure := by
  rcases verified_cases signer token with
    ⟨⟨addressed⟩⟩ | ⟨isList, deep⟩ | refused
  · unfold claimsOf at fails
    rw [addressed.verified] at fails
    cases verdict : addressed.verdict with
    | error fault =>
        rw [verdict] at fails
        cases fails
        exact .key addressed verdict
    | ok genuine =>
        rw [verdict] at fails
        cases genuine with
        | false =>
            cases fails
            exact absurd rfl unrejected
        | true =>
            rcases bind_eq_error_iff.mp fails with fails | ⟨claims, read, fails⟩
            · obtain ⟨isList, deep, rfl⟩ :=
                recordOf_fails_iff.mp ⟨fails, unrejected⟩
              exact .content addressed verdict deep
            · rcases bind_eq_error_iff.mp fails with fails | ⟨⟨⟩, -, absent⟩
              · exact
                  .claims addressed verdict read
                    (check_fails_iff.mp ⟨fails, unrejected⟩)
              · cases absent
  · unfold claimsOf at fails
    rw [verified_of_hasDeepHeader deep] at fails
    cases fails
    exact .header deep
  · unfold claimsOf at fails
    rw [refused] at fails
    cases fails
    exact absurd rfl unrejected

theorem Strays.claimsOf
    (strays : Strays signer now token failure) :
    Token.claimsOf signer now token = .error failure := by
  unfold Token.claimsOf
  cases strays with
  | header deep =>
      rw [verified_of_hasDeepHeader deep]
      rfl
  | key addressed keyless =>
      rw [addressed.verified, keyless]
      rfl
  | content addressed genuine deep =>
      obtain ⟨fails, -⟩ := recordOf_fails_iff.mpr ⟨_, deep, rfl⟩
      rw [addressed.verified, genuine]
      exact bind_eq_error_iff.mpr (.inl fails)
  | claims addressed genuine read obstructs =>
      obtain ⟨fails, -⟩ := check_fails_iff.mpr obstructs
      rw [addressed.verified, genuine]
      refine bind_eq_error_iff.mpr (.inr ⟨_, read, ?_⟩)
      exact bind_eq_error_iff.mpr (.inl fails)

end Strays

end Token

namespace Http

/-- The request is not open to everybody, and its header bears the token. -/
structure Bears (request : Request) (token : String) : Prop where
  closed : Gate.isOpen request = false
  shown :
    Gate.token ((request.header? "authorization").getD "") = .ok token.toList

section Bears

variable {service : Service} {request : Request} {token : String}
  {failure : Failure}

theorem pass_of_bears
    (bears : Bears request token)
    (fails :
      Token.claimsOfValue service.configuration.signer service.session.now
          (.text token) =
        .error failure) :
    Gate.pass service.configuration.signer service.session.now request =
      .error failure := by
  have bytes : Token.bytesOf token.toList = token.toUTF8.toList := by
    unfold Token.bytesOf
    rw [String.ofList_toList]
  have read :
      Token.claimsOf service.configuration.signer service.session.now
          (Token.bytesOf token.toList) =
        .error failure := by
    rw [bytes]
    exact fails
  unfold Gate.pass
  rw [bears.closed, if_neg Bool.false_ne_true, bears.shown]
  exact
    bind_eq_error_iff.mpr
      (.inr ⟨_, rfl, bind_eq_error_iff.mpr (.inl read)⟩)

/-- The token decides what a request is answered with that is turned away. -/
theorem status_of_bears
    (occasion : Occasion) (bears : Bears request token)
    (fails :
      Token.claimsOfValue service.configuration.signer service.session.now
          (.text token) =
        .error failure) :
    (service.answer occasion request).1.response.status =
      Service.statusOf (Service.answered (.error failure)) := by
  rw [(service.answer_eq_withGate occasion request).1]
  unfold Service.withGate
  rw [pass_of_bears bears fails]

end Bears

end Http

namespace Token

/-- A token that gives no claims is rejected and answered as unauthenticated, unless it
strays; then the failure that it strays with goes through the service, and the answer
is that of a fault of the server. -/
theorem strays_iff (token : String) :
    (∀ signer now failure,
      claimsOfValue signer now (.text token) = .error failure ∧
          failure ≠ rejected ↔
        Strays signer now token.toUTF8.toList failure) ∧
      ∀ (service : Http.Service) (occasion : Http.Occasion)
        (request : Http.Request), Http.Bears request token →
        (claimsOfValue service.configuration.signer service.session.now
              (.text token) =
            .error rejected →
          (service.answer occasion request).1.response.status = 401) ∧
        ∀ failure,
          Strays service.configuration.signer service.session.now
              token.toUTF8.toList failure →
            (service.answer occasion request).1.response.status = 500 := by
  refine ⟨fun signer now failure => ⟨?_, fun strays => ?_⟩, ?_⟩
  · exact fun both => strays_of_claimsOf both.1 both.2
  · exact ⟨strays.claimsOf, strays.unrefused _⟩
  · intro service occasion request bears
    refine ⟨fun refused => ?_, fun failure strays => ?_⟩
    · rw [Http.status_of_bears occasion bears refused]
      rfl
    · rw [Http.status_of_bears occasion bears strays.claimsOf]
      cases failure with
      | refused refusal =>
          exact absurd rfl (strays.unrefused refusal)
      | _ =>
          rfl

theorem eq_ok_of_toOption
    {ε α : Type} {x : Except ε α} {value : α} (same : x.toOption = some value) :
    x = .ok value := by
  cases x with
  | error fault =>
      cases same
  | ok found =>
      cases same
      rfl

/-- The secret is JSON and names no key. -/
def keylessSigner : Signer :=
  ⟨.text "null", .text "HS256", .integer 60, Json.deepest⟩

def keylessService : Http.Service :=
  { Http.keeperService with
    configuration :=
      { Http.keeperService.configuration with signer := keylessSigner } }

def keylessToken : String := "eyJhbGciOiJIUzI1NiJ9.e30.e30"

def bearing (token : String) : Http.Request :=
  ⟨"GET", "/api/v1/iam/policies/", [("Authorization", "Bearer " ++ token)],
    none, ""⟩

def isKeyless : Except Failure Fields → Bool
  | .error (.key .notSecret) => true
  | _ => false

theorem eq_of_isKeyless
    {result : Except Failure Fields} (keyless : isKeyless result = true) :
    result = .error (.key .notSecret) := by
  unfold isKeyless at keyless
  split at keyless
  · rfl
  · cases keyless

theorem keylessToken_strays :
    Strays keylessSigner keylessService.session.now
      keylessToken.toUTF8.toList (.key .notSecret) :=
  strays_of_claimsOf (eq_of_isKeyless (by decide +kernel)) nofun

theorem words_answered :
    (Http.Bears (bearing "word") "word" ∧
      claimsOfValue keylessSigner keylessService.session.now
          (.text "word") =
        .error rejected ∧
      (keylessService.answer (Http.Service.quiet none)
          (bearing "word")).1.response.status = 401) ∧
      Http.Bears (bearing keylessToken) keylessToken ∧
      Strays keylessSigner keylessService.session.now
        keylessToken.toUTF8.toList (.key .notSecret) ∧
      (keylessService.answer (Http.Service.quiet none)
          (bearing keylessToken)).1.response.status = 500 := by
  have word : Http.Bears (bearing "word") "word" :=
    ⟨by decide +kernel, eq_ok_of_toOption (by decide +kernel)⟩
  have token : Http.Bears (bearing keylessToken) keylessToken :=
    ⟨by decide +kernel, eq_ok_of_toOption (by decide +kernel)⟩
  have pointless : splitLast? "word".toUTF8.toList = none := by
    decide +kernel
  have refused :
      claimsOfValue keylessSigner keylessService.session.now (.text "word") =
        .error rejected := by
    simp only [claimsOfValue, claimsOf, verified, pointless]
    rfl
  exact
    ⟨⟨word, refused,
        ((strays_iff "word").2 keylessService (Http.Service.quiet none) _
          word).1 refused⟩,
      token, keylessToken_strays,
      ((strays_iff keylessToken).2 keylessService (Http.Service.quiet none) _
        token).2 _ keylessToken_strays⟩

def undatedClaims : Fields :=
  [("sub", .text "abc"), ("iat", .null)]

/-- A signed token whose time of issue is null is neither accepted nor rejected. -/
theorem undated_unrejected :
    ∃ token : String,
      make presetSigner (.ok passTime) (some 60000000)
            (.record undatedClaims) =
          .ok token.toUTF8.toList ∧
        claimsOfValue presetSigner (.ok passTime) (.text token) =
            .error (.claimNotNumeric .null) ∧
          Failure.claimNotNumeric .null ≠ rejected := by
  have shared : "HS256" ∈ Algorithm.hashes.map Prod.fst := by
    decide
  have portable : Json.Portable Json.deepest (.record undatedClaims) := by
    have names : Fields.names undatedClaims = ["sub", "iat"] := rfl
    refine .record (by rw [names]; decide) fun field member => ?_
    simp only [undatedClaims, List.mem_cons, List.not_mem_nil,
      or_false] at member
    rcases member with rfl | rfl
    · exact .text _ _
    · exact .null _
  have expires := expiryNow_pass presetSigner
  have portableSet :=
    portable.set_integer "exp" (countable_of_expiryNow expires)
  obtain ⟨token, signed, read⟩ :=
    exists_genuine presetSigner.lifetimeMinutes preset_standsForItself shared
      portableSet.readsBack
  have obstructs :
      Obstructs (.ok passTime)
        (undatedClaims.set "exp" (.integer 1704067260))
        (.claimNotNumeric .null) :=
    .issued rfl .null
  obtain ⟨fails, unrejected⟩ := check_fails_iff.mpr obstructs
  refine ⟨token, ?_, ?_, unrejected⟩
  · exact (make_record expires portableSet).trans signed
  · have verifiedAs :
        verified presetSigner token.toUTF8.toList =
          .ok (undatedClaims.set "exp" (.integer 1704067260)) :=
      read presetSigner.lifetimeMinutes
    unfold claimsOfValue claimsOf
    simp only [verifiedAs, bind, Except.bind, fails]

end Token

end AccessControl
