import AccessControl.Proofs.Numeral
import AccessControl.Proofs.Stored
import AccessControl.Proofs.Token

/-!
# How long a token lives

A token of acceptable claims is accepted up to the second in which its time is over,
and rejected after it: `accepted_iff_not_after`.  Its time is the duration that was
asked for, be it negative.  Only where a duration of nothing is asked for, the token
gets the configured lifetime instead, and outlives its request:
`abc_accepted_after_expiry`.
-/

namespace AccessControl

namespace Fields

/-- Fields that are related one by one have related values under every name. -/
theorem rel_get?
    {related : String × Value → String × Value → Prop}
    (named : ∀ field other, related field other → field.1 = other.1)
    {fields others : Fields} (each : List.Forall₂ related fields others)
    (name : String) :
    Option.Rel (fun v other => related (name, v) (name, other))
      (fields.get? name) (others.get? name) := by
  induction each with
  | nil =>
      exact .none
  | @cons field other fields others first _ inductionHypothesis =>
      obtain ⟨key, v⟩ := field
      obtain ⟨sameKey, w⟩ := other
      obtain rfl : key = sameKey := named _ _ first
      unfold get? at inductionHypothesis ⊢
      rw [List.lookup_cons, List.lookup_cons]
      cases same : name == key with
      | false =>
          exact inductionHypothesis
      | true =>
          obtain rfl := beq_iff_eq.mp same
          exact .some first

theorem eq_or_of_mem_set
    {fields : Fields} (distinct : fields.names.Nodup) {name : String}
    {value : Value} {field : String × Value}
    (member : field ∈ fields.set name value) :
    field = (name, value) ∨ field ∈ fields ∧ field.1 ≠ name := by
  by_cases same : field.1 = name
  · have found :=
      (get?_eq_some_iff_mem (nodup_names_set distinct name value)).mpr member
    rw [same, get?_set_self] at found
    exact .inl (Prod.ext same (Option.some.inj found).symm)
  · rcases mem_of_mem_set member with earlier | new
    · exact .inr ⟨earlier, same⟩
    · exact .inl new

end Fields

namespace Token

/-- What is read for a claim resembles what was written for it. -/
def Arrives (claim arrived : String × Value) : Prop :=
  claim.1 = arrived.1 ∧
    ∃ plain, carried claim = .ok plain ∧ Json.Resembles plain arrived.2

/-- Claims that can all be written are read again one by one. -/
theorem exists_arrived
    {claims : Fields} {depth : Nat} (distinct : claims.names.Nodup)
    (written :
      ∀ claim ∈ claims,
        ∃ plain, carried claim = .ok plain ∧ Json.Writable depth plain) :
    ∃ plains payload,
      withTimes claims = .ok plains ∧
        Json.ReadsAs (depth + 1) (.record plains) (.record payload) ∧
        List.Forall₂ Arrives claims payload := by
  have : Nonempty Value := ⟨.null⟩
  choose! plain carriedAs writable using written
  have read :
      ∀ claim ∈ claims, ∃ arrived,
        Json.ReadsAs depth (plain claim) arrived ∧
          Json.Resembles (plain claim) arrived :=
    fun claim member => (writable claim member).exists_readsAs
  choose! arrived reads resembles using read
  refine
    ⟨claims.map fun claim => (claim.1, plain claim),
      claims.map fun claim => (claim.1, arrived claim),
      withTimes_of_carried carriedAs, ?_, ?_⟩
  · have names :
        Fields.names (claims.map fun claim => (claim.1, plain claim)) =
          claims.names := by
      unfold Fields.names
      rw [List.map_map]
      rfl
    apply Json.readsAs_record
    · rw [names]
      exact distinct
    · apply List.forall₂_map_left_iff.mpr
      apply List.forall₂_map_right_iff.mpr
      apply List.forall₂_same.mpr
      exact fun claim member => ⟨rfl, reads claim member⟩
  · apply List.forall₂_map_right_iff.mpr
    apply List.forall₂_same.mpr
    exact fun claim member =>
      ⟨rfl, plain claim, carriedAs claim member, resembles claim member⟩

theorem exists_wholeNumber_of_isFinite
    {d : Double} (finite : d.isFinite = true) :
    ∃ n, wholeNumber (.number (.double d)) = .ok n := by
  obtain ⟨scaled, extended⟩ := Double.exists_extended_of_isFinite finite
  refine ⟨Int.tdiv scaled unitsPerOne, ?_⟩
  unfold wholeNumber Number.truncated
  simp only [extended]

theorem exists_wholeNumber_of_resembles
    {plain arrived : Value} {n : Int} (resembles : Json.Resembles plain arrived)
    (whole : wholeNumber plain = .ok n) :
    ∃ m, wholeNumber arrived = .ok m := by
  cases resembles with
  | same =>
      exact ⟨n, whole⟩
  | list items others =>
      cases whole
  | record fields others =>
      cases whole
  | @double d e finite =>
      have written : d.isFinite = true := by
        cases endless : d.isFinite with
        | true =>
            rfl
        | false =>
            unfold wholeNumber Number.truncated at whole
            rcases Double.extended_of_not_isFinite endless with
              extended | extended | extended <;>
              simp [extended] at whole
      exact exists_wholeNumber_of_isFinite (finite.trans written)

/-- Claims that can be written and read, each nested at most so deep, and that are
refused for nothing but the expiry, which is given to them in any case. -/
structure Acceptable (depth : Nat) (claims : Fields) : Prop where
  distinct : claims.names.Nodup
  written :
    ∀ claim ∈ claims, claim.1 ≠ "exp" →
      ∃ plain,
        carried claim = .ok plain ∧ Json.Writable depth plain
  issued :
    ∀ claim, claims.get? "iat" = some claim →
      ∃ plain n, carried ("iat", claim) = .ok plain ∧ wholeNumber plain = .ok n
  unstarted : claims.get? "nbf" = none
  audience : claims.get? "aud" = none
  subject :
    ∀ claim, claims.get? "sub" = some claim → ∃ text, claim = .text text
  identifier :
    ∀ claim, claims.get? "jti" = some claim → ∃ text, claim = .text text
  accessHash : claims.get? "at_hash" = none

section Arrived

variable {claims payload : Fields} {expiry : Int}
  (arrived :
    List.Forall₂ Arrives (claims.set "exp" (.integer expiry)) payload)

include arrived

/-- Every claim but the expiry arrives as what was written for it. -/
theorem rel_arrived {name : String} (other : name ≠ "exp") :
    Option.Rel (fun v w => Arrives (name, v) (name, w)) (claims.get? name)
      (payload.get? name) := by
  have related := Fields.rel_get? (fun _ _ arrives => arrives.1) arrived name
  rw [Fields.get?_set_of_ne other] at related
  exact related

theorem get?_arrived_none
    {name : String} (other : name ≠ "exp") (absent : claims.get? name = none) :
    payload.get? name = none := by
  have related := rel_arrived arrived other
  rw [absent] at related
  generalize payload.get? name = found at related ⊢
  cases related
  rfl

theorem get?_arrived_expiry :
    payload.get? "exp" = some (.integer expiry) := by
  have related :=
    Fields.rel_get? (fun _ _ arrives => arrives.1) arrived "exp"
  rw [Fields.get?_set_self] at related
  generalize payload.get? "exp" = found at related ⊢
  cases related with
  | some arrives =>
      obtain ⟨-, plain, carriedAs, resembles⟩ := arrives
      cases carriedAs
      cases resembles
      rfl

theorem checkClaim_arrived_text
    {name : String} (untimed : timeClaims.contains name = false)
    (text :
      ∀ claim, claims.get? name = some claim → ∃ s, claim = .text s) :
    checkClaim payload name isText = .ok () := by
  have other : name ≠ "exp" := by
    rintro rfl
    exact absurd untimed (by decide)
  have related := rel_arrived arrived other
  apply checkClaim_text
  intro claim found
  rw [found] at related
  generalize earlier : claims.get? name = sent at related
  cases related with
  | some arrives =>
      obtain ⟨-, plain, carriedAs, resembles⟩ := arrives
      obtain ⟨s, rfl⟩ := text _ earlier
      unfold carried at carriedAs
      rw [if_neg (Bool.eq_false_iff.mp untimed)] at carriedAs
      cases carriedAs
      cases resembles
      exact ⟨s, rfl⟩

/-- Of acceptable claims, only the expiry can be wrong. -/
theorem check_arrived (acceptable : Acceptable depth claims) (time : Timestamp) :
    check (.ok time) payload =
      if time.seconds ≤ expiry then .ok () else .error rejected := by
  have issued : checkTime payload "iat" (fun _ => .ok true) = .ok () := by
    have related := rel_arrived arrived (show "iat" ≠ "exp" by decide)
    apply checkTime_whole
    intro claim found
    rw [found] at related
    generalize earlier : claims.get? "iat" = sent at related
    cases related with
    | some arrives =>
        obtain ⟨-, plain, carriedAs, resembles⟩ := arrives
        obtain ⟨sent, n, same, whole⟩ := acceptable.issued _ earlier
        cases carriedAs.symm.trans same
        obtain ⟨m, read⟩ := exists_wholeNumber_of_resembles resembles whole
        exact ⟨m, read, rfl⟩
  have started :
      checkTime payload "nbf"
          (compared (.ok time) fun time start => start ≤ time) =
        .ok () := by
    apply checkTime_whole
    intro claim found
    rw [get?_arrived_none arrived (by decide) acceptable.unstarted] at found
    cases found
  exact
    check_of_expiry issued started (get?_arrived_expiry arrived)
      (get?_arrived_none arrived (by decide) acceptable.audience)
      (checkClaim_arrived_text arrived rfl acceptable.subject)
      (checkClaim_arrived_text arrived rfl acceptable.identifier)
      (get?_arrived_none arrived (by decide) acceptable.accessHash)

end Arrived

/-! ## The time of a token -/

theorem carried_expiry (second : Int) :
    carried ("exp", .integer second) = .ok (.integer second) :=
  rfl

section Lived

variable {secret name : String} {lifetime : Value}
  {now : Except Clock.Fault Timestamp} {asked : Option Int}
  {claims : Fields} {expiry : Int}

/-- A token of acceptable claims is accepted up to the second of its expiry, and
rejected after it. -/
theorem exists_lived
    (stands : Key.StandsForItself (depth + 1) secret)
    (shared : name ∈ Algorithm.hashes.map Prod.fst)
    (acceptable : Acceptable depth claims)
    (expires :
      expiryNow ⟨.text secret, .text name, lifetime, depth + 1⟩ now asked =
        .ok expiry) :
    ∃ (token : String) (payload : Fields),
      make ⟨.text secret, .text name, lifetime, depth + 1⟩ now asked
          (.record claims) =
          .ok token.toUTF8.toList ∧
        ∀ later (time : Timestamp),
          claimsOfValue ⟨.text secret, .text name, later, depth + 1⟩ (.ok time)
              (.text token) =
            if time.seconds ≤ expiry then .ok payload else .error rejected := by
  have countable := countable_of_expiryNow expires
  obtain ⟨plains, payload, stamps, reads, arrived⟩ :
      ∃ plains payload,
        withTimes (claims.set "exp" (.integer expiry)) = .ok plains ∧
          Json.ReadsAs (depth + 1) (.record plains) (.record payload) ∧
          List.Forall₂ Arrives (claims.set "exp" (.integer expiry)) payload := by
    apply
      exists_arrived (Fields.nodup_names_set acceptable.distinct "exp" _)
    intro claim member
    rcases Fields.eq_or_of_mem_set acceptable.distinct member with
      rfl | ⟨earlier, other⟩
    · exact ⟨_, carried_expiry expiry, .integer _ countable⟩
    · exact acceptable.written claim earlier other
  obtain ⟨token, signed, read⟩ :=
    exists_genuine lifetime stands shared reads
  refine ⟨token, payload, ?_, fun later time => ?_⟩
  · have stamped : claimsWith claims expiry = .ok plains := stamps
    unfold make
    rw [expires]
    simp only [bind, Except.bind, stamped]
    exact signed
  · unfold claimsOfValue claimsOf
    simp only [read, bind, Except.bind, check_arrived arrived acceptable time]
    by_cases unexpired : time.seconds ≤ expiry
    · rw [if_pos unexpired, if_pos unexpired]
    · rw [if_neg unexpired, if_neg unexpired]

end Lived

theorem expiryNow_of_lifetime
    {signer : Signer} {now : Timestamp} {asked lived : Int}
    (lives : lifetime signer (some asked) = .ok lived)
    (dated : Duration.isDate (now.instant + lived) = true) :
    expiryNow signer (.ok now) (some asked) =
      .ok (Int.fdiv (now.instant + lived) Timestamp.second) := by
  unfold expiryNow expiry Duration.after Duration.dated
  simp only [Except.mapError, bind, Except.bind, lives, dated, if_true]

/-- A token of acceptable claims is accepted just while the second of its expiry is not
over: after the duration that was asked for, or after the configured lifetime where
that was a duration of nothing. -/
theorem accepted_iff_not_after
    {secret name : String} {minutes : Value} {claims : Fields}
    {now : Timestamp} {asked lived : Int}
    (stands : Key.StandsForItself (depth + 1) secret)
    (shared : name ∈ Algorithm.hashes.map Prod.fst)
    (acceptable : Acceptable depth claims)
    (lives :
      asked ≠ 0 ∧ lived = asked ∨
        asked = 0 ∧ Duration.ofValue Duration.minute minutes = .ok lived)
    (dated : Duration.isDate (now.instant + lived) = true) :
    ∃ token : String,
      make ⟨.text secret, .text name, minutes, depth + 1⟩ (.ok now) (some asked)
          (.record claims) =
        .ok token.toUTF8.toList ∧
      ∀ later (time : Timestamp),
        ((∃ payload,
            claimsOfValue ⟨.text secret, .text name, later, depth + 1⟩ (.ok time)
                (.text token) =
              .ok payload) ↔
          time.seconds ≤ Int.fdiv (now.instant + lived) Timestamp.second) ∧
        (¬ time.seconds ≤ Int.fdiv (now.instant + lived) Timestamp.second →
          claimsOfValue ⟨.text secret, .text name, later, depth + 1⟩ (.ok time)
              (.text token) =
            .error rejected) := by
  have duration :
      lifetime ⟨.text secret, .text name, minutes, depth + 1⟩ (some asked) =
        .ok lived := by
    unfold lifetime
    rcases lives with ⟨some, rfl⟩ | ⟨rfl, configured⟩
    · exact if_neg some
    · exact configured
  obtain ⟨token, payload, made, decided⟩ :=
    exists_lived stands shared acceptable
      (expiryNow_of_lifetime duration dated)
  refine ⟨token, made, fun later time => ⟨⟨?_, fun unexpired => ?_⟩, ?_⟩⟩
  · rintro ⟨given, accepted⟩
    by_contra expired
    rw [decided, if_neg expired] at accepted
    cases accepted
  · exact ⟨payload, (decided later time).trans (if_pos unexpired)⟩
  · exact fun expired => (decided later time).trans (if_neg expired)

/-- Claims that were issued a quarter of a second before the pass is made. -/
def quarterClaims : Fields :=
  [("sub", .text "abc"),
   ("iat", .number (.double ⟨0x41d964801ff00000⟩)),
   ("exp", .null)]

theorem quarterClaims_acceptable (depth : Nat) :
    Acceptable depth quarterClaims where
  distinct := by
    have names : Fields.names quarterClaims = ["sub", "iat", "exp"] := rfl
    rw [names]
    decide
  written := by
    intro claim member other
    simp only [quarterClaims, List.mem_cons, List.not_mem_nil,
      or_false] at member
    rcases member with rfl | rfl | rfl
    · exact ⟨_, rfl, .text _ _⟩
    · exact ⟨_, rfl, .double _ _⟩
    · exact absurd rfl other
  issued := by
    intro claim found
    cases found
    obtain ⟨n, whole⟩ :=
      exists_wholeNumber_of_isFinite
        (show (Double.mk 0x41d964801ff00000).isFinite = true by decide)
    exact ⟨_, n, rfl, whole⟩
  unstarted := rfl
  audience := rfl
  subject := by
    intro claim found
    cases found
    exact ⟨_, rfl⟩
  identifier := by
    intro claim found
    cases found
  accessHash := rfl

/-- A pass that is over half a second before it is made. -/
theorem quarter_accepted_before :
    (Key.StandsForItself Json.deepest "secret" ∧
      "HS384" ∈ Algorithm.hashes.map Prod.fst ∧
      Acceptable (Json.deepest - 1) quarterClaims ∧
      ((-500000 : Int) ≠ 0 ∧ (-500000 : Int) = -500000) ∧
      Duration.isDate (passTime.instant + -500000) = true) ∧
      ∃ token : String,
        make ⟨.text "secret", .text "HS384", .null, Json.deepest⟩ (.ok passTime)
            (some (-500000)) (.record quarterClaims) =
          .ok token.toUTF8.toList ∧
        ∀ later (time : Timestamp),
          ((∃ payload,
              claimsOfValue ⟨.text "secret", .text "HS384", later, Json.deepest⟩
                  (.ok time) (.text token) =
                .ok payload) ↔
            time.seconds ≤
              Int.fdiv (passTime.instant + -500000) Timestamp.second) ∧
          (¬ time.seconds ≤
                Int.fdiv (passTime.instant + -500000) Timestamp.second →
            claimsOfValue ⟨.text "secret", .text "HS384", later, Json.deepest⟩
                (.ok time) (.text token) =
              .error rejected) := by
  have stands : Key.StandsForItself Json.deepest "secret" :=
    ⟨Key.not_isForeign_of_notMem (by decide), rfl⟩
  have shared : "HS384" ∈ Algorithm.hashes.map Prod.fst := by
    decide
  have asked : (-500000 : Int) ≠ 0 ∧ (-500000 : Int) = -500000 := by
    decide
  have dated : Duration.isDate (passTime.instant + -500000) = true := by
    decide
  exact
    ⟨⟨stands, shared, quarterClaims_acceptable _, asked, dated⟩,
      accepted_iff_not_after stands shared (quarterClaims_acceptable _)
        (.inl asked) dated⟩

def presetSigner : Signer :=
  ⟨.text "change-me-in-production", .text "HS256", .integer 1440,
    Json.deepest⟩

theorem preset_standsForItself :
    Key.StandsForItself presetSigner.depth "change-me-in-production" where
  native := by
    have unopened : 'B' ∉ "change-me-in-production".toList := by
      decide
    have unlogged : 's' ∉ "change-me-in-production".toList := by
      decide
    exact
      Key.not_isForeign_of_lacking (.inr rfl) (by decide) unopened unlogged
  own := rfl

def abcClaims : Fields :=
  [("sub", .text "abc")]

theorem abcClaims_acceptable (depth : Nat) : Acceptable depth abcClaims where
  distinct := List.nodup_singleton _
  written := by
    intro claim member _
    rw [List.mem_singleton.mp member]
    exact ⟨_, rfl, .text _ _⟩
  issued := by
    intro claim found
    cases found
  unstarted := rfl
  audience := rfl
  subject := by
    intro claim found
    cases found
    exact ⟨_, rfl⟩
  identifier := by
    intro claim found
    cases found
  accessHash := rfl

/-- A pass for no time at all is accepted a second after it was made, because it lives
for the configured day. -/
theorem abc_accepted_after_expiry :
    Acceptable (Json.deepest - 1) abcClaims ∧
      ∃ (token : String) (payload : Fields),
        make presetSigner (.ok passTime) (some 0) (.record abcClaims) =
            .ok token.toUTF8.toList ∧
          claimsOfValue presetSigner
              (.ok (.ofMicroseconds 1704067201000000)) (.text token) =
            .ok payload ∧
          ¬ (Timestamp.ofMicroseconds 1704067201000000).seconds ≤
            Int.fdiv (passTime.instant + 0) Timestamp.second := by
  have shared : "HS256" ∈ Algorithm.hashes.map Prod.fst := by
    decide
  have day : lifetime presetSigner (some 0) = .ok 86400000000 := by
    decide +kernel
  have dated :
      Duration.isDate (passTime.instant + 86400000000) = true := by
    decide
  obtain ⟨token, payload, made, decided⟩ :=
    exists_lived preset_standsForItself shared (abcClaims_acceptable _)
      (expiryNow_of_lifetime day dated)
  have unexpired :
      (Timestamp.ofMicroseconds 1704067201000000).seconds ≤
        Int.fdiv (passTime.instant + 86400000000) Timestamp.second := by
    decide
  exact
    ⟨abcClaims_acceptable _, token, payload, made,
      (decided _ _).trans (if_pos unexpired), by decide⟩

end Token

end AccessControl
