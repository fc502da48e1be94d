import AccessControl.Proofs.Json
import AccessControl.Proofs.Program
import AccessControl.Proofs.Segment

/-!
# Tokens that are accepted where they were made

A token made from claims is accepted under the same secret and algorithm until its
expiry, and gives the claims back with the expiry among them:
`claimsOf_make`.  This holds of secrets that stand for themselves.  A secret that
is JSON names other keys when a token is checked than the one it is made with.
-/

namespace AccessControl

theorem Text.mem_of_occursIn
    {part text : List Char} (occurs : occursIn part text = true) {c : Char}
    (member : c ∈ part) : c ∈ text := by
  induction text with
  | nil =>
      rw [List.isEmpty_iff.mp occurs] at member
      cases member
  | cons first rest inductionHypothesis =>
      unfold occursIn at occurs
      rcases Bool.or_eq_true_iff.mp occurs with here | later
      · exact (List.isPrefixOf_iff_prefix.mp here).subset member
      · exact List.mem_cons_of_mem _ (inductionHypothesis later)

namespace Key

theorem mem_of_mem_boundaries
    {label : String} {boundary : List Char}
    (member : boundary ∈ boundaries label) {c : Char}
    (shared : c = '-' ∨ c = 'B') : c ∈ boundary := by
  simp only [boundaries, List.mem_flatMap, List.mem_map] at member
  obtain ⟨front, -, back, -, rfl⟩ := member
  simp only [String.toList_append, List.mem_append]
  have dashed : '-' ∈ (toString "----").toList := by
    decide
  have begun : 'B' ∈ (toString "BEGIN ").toList := by
    decide
  rcases shared with rfl | rfl
  · simp [dashed]
  · simp [begun]

/-- A text is not foreign when it lacks a character of every boundary and one of every
kind of login. -/
theorem not_isForeign_of_lacking
    {text : List Char} {opening login : Char}
    (opens : opening = '-' ∨ opening = 'B')
    (logs : ∀ kind ∈ certificateEnding :: loginKinds, login ∈ kind.toList)
    (unopened : opening ∉ text) (unlogged : login ∉ text) :
    isForeign text = false := by
  have unbounded : hasBoundary text = false := by
    unfold hasBoundary
    rw [List.any_eq_false]
    intro label _
    rw [List.any_eq_true]
    rintro ⟨boundary, inside, occurs⟩
    exact unopened
      (Text.mem_of_occursIn occurs (mem_of_mem_boundaries inside opens))
  have kindless :
      (loginKinds.any fun kind => Text.occursIn kind.toList text) = false := by
    rw [List.any_eq_false]
    intro kind inside occurs
    exact unlogged
      (Text.mem_of_occursIn occurs
        (logs kind (List.mem_cons_of_mem _ inside)))
  have uncertified : isLoginCertificate text = false := by
    cases certified : isLoginCertificate text with
    | false =>
        rfl
    | true =>
        simp only [isLoginCertificate, Bool.and_eq_true] at certified
        have ending := List.isSuffixOf_iff_suffix.mp certified.1.1
        have inWord := ending.subset (logs _ List.mem_cons_self)
        exact absurd ((List.takeWhile_sublist _).subset inWord) unlogged
  unfold isForeign
  rw [unbounded, kindless, uncertified]
  rfl

theorem not_isForeign_of_notMem
    {text : List Char} (undashed : '-' ∉ text) : isForeign text = false :=
  not_isForeign_of_lacking (.inl rfl) (by decide) undashed undashed

theorem isForeign_of_mem_loginKinds
    {kind : String} (member : kind ∈ loginKinds) {text : List Char}
    (occurs : Text.occursIn kind.toList text = true) :
    isForeign text = true := by
  have logged :
      (loginKinds.any fun kind => Text.occursIn kind.toList text) = true :=
    List.any_eq_true.mpr ⟨kind, member, occurs⟩
  unfold isForeign
  rw [logged, Bool.or_true, Bool.true_or]

/-- A secret that tokens are made and checked with: it is no half of a key pair,
and no JSON for other keys that is read to this depth. -/
structure StandsForItself (depth : Nat) (secret : String) : Prop where
  native : isForeign secret.toList = false
  own : content depth (.text secret) = .text secret

section Shared

variable {depth : Nat} {name : String} {member : Sha2.Member}
  {secret : String} (known : Algorithm.ofName? (.text name) = some (.shared member))

include known

theorem signing_shared (native : isForeign secret.toList = false) :
    signing (.text name) (.text secret) =
      .ok (some (member, secret.toUTF8.toList)) := by
  unfold signing
  rw [known]
  simp only [Key.secret, native, Bool.false_eq_true, if_false]
  rfl

theorem verifies_shared
    (stands : StandsForItself depth secret)
    (fits : Sha2.Member → List UInt8 → Bool) :
    verifies depth (.text name) (.text secret) fits =
      .ok (fits member secret.toUTF8.toList) := by
  unfold verifies
  rw [stands.own]
  change anySigns (.text name) fits [.text secret] = _
  unfold anySigns
  rw [signing_shared known stands.native]
  simp only [bind, Except.bind]
  cases fits member secret.toUTF8.toList <;> rfl

end Shared

end Key

namespace Algorithm

theorem shared_of_mem_hashes
    {name : String} (member : name ∈ hashes.map Prod.fst) :
    (nameable? (.text name)).isNone = false ∧
      ∃ hash, ofName? (.text name) = some (.shared hash) := by
  simp only [hashes, List.map_cons, List.map_nil, List.mem_cons,
    List.not_mem_nil, or_false] at member
  rcases member with rfl | rfl | rfl <;> exact ⟨rfl, _, rfl⟩

theorem ne_empty_of_mem_hashes
    {name : String} (member : name ∈ hashes.map Prod.fst) : name ≠ "" := by
  rintro rfl
  exact absurd member (by decide)

end Algorithm

namespace Token

/-! ## Signed tokens -/

def inputOf (front back : List UInt8) : List UInt8 :=
  Base64.encode front ++ point :: Base64.encode back

def joined (front back given : List UInt8) : List UInt8 :=
  inputOf front back ++ point :: Base64.encode given

theorem exists_text_of_joined (front back given : List UInt8) :
    ∃ text : String, text.toUTF8.toList = joined front back given := by
  apply exists_text_of_ascii
  intro byte member
  unfold joined inputOf at member
  simp only [List.mem_append, List.mem_cons] at member
  rcases member with (inFront | rfl | inBack) | rfl | inGiven
  · exact Base64.ascii_of_mem_encode inFront
  · decide
  · exact Base64.ascii_of_mem_encode inBack
  · decide
  · exact Base64.ascii_of_mem_encode inGiven

/-- What the check of a signature comes to for claims that are read so. -/
def settled (claims : Except Failure Fields) :
    Except Key.Fault Bool → Except Failure Fields
  | .error fault => .error (.key fault)
  | .ok false => .error rejected
  | .ok true => claims

section Joined

variable {signer : Signer} {name : String} {front back given : List UInt8}
  {head : Fields}

/-- A token whose header names the algorithm is settled by its signature. -/
theorem verified_joined
    (headRead : recordOf signer.depth front = .ok head)
    (names : head.get? "alg" = some (.text name))
    (named : namesAlgorithm signer (.text name) = true) :
    verified signer (joined front back given) =
      settled (recordOf signer.depth back)
        (Key.verifies signer.depth (.text name) signer.secret
          fun member secret =>
            given = Hmac.sign member secret (inputOf front back)) := by
  unfold verified joined
  rw [splitLast?_append _ (Base64.point_notMem_encode given)]
  simp only [found, bind, Except.bind]
  unfold inputOf
  rw [splitFirst?_append (Base64.point_notMem_encode front)]
  simp only [Base64.decode?_encode, headRead, names, Option.getD_some, named,
    Bool.not_true, Bool.false_eq_true, if_false]
  rfl

end Joined

theorem recordOf_bytesOf
    {depth : Nat} {written : List Char} {fields : Fields}
    (read : Json.read (String.ofList written) depth = .ok (.record fields)) :
    recordOf depth (bytesOf written) = .ok fields := by
  unfold recordOf
  rw [fromUTF8?_bytesOf]
  simp only [found, bind, Except.bind, read]

def headerOf (name : String) : Fields :=
  [("alg", .text name), ("typ", .text "JWT")]

theorem portable_headerOf (depth : Nat) (name : String) :
    Json.Portable (depth + 1) (.record (headerOf name)) := by
  have distinct : Fields.names (headerOf name) = ["alg", "typ"] := rfl
  refine .record (by rw [distinct]; decide) ?_
  intro field member
  simp only [headerOf, List.mem_cons, List.not_mem_nil, or_false] at member
  rcases member with rfl | rfl
  · exact .text _ name
  · exact .text _ "JWT"

theorem namesAlgorithm_self
    {signer : Signer} {name : String} (same : signer.algorithm = .text name)
    (filled : name ≠ "") :
    namesAlgorithm signer (.text name) = true := by
  unfold namesAlgorithm
  rw [same, Value.same_text]
  simp [Value.isTruthy, filled]

theorem exists_signingInput
    (name : String) {depth : Nat} {claims payload : Fields}
    (reads : Json.ReadsAs (depth + 1) (.record claims) (.record payload)) :
    ∃ front back,
      recordOf (depth + 1) front = .ok (headerOf name) ∧
        recordOf (depth + 1) back = .ok payload ∧
        signingInput? (.text name) claims = some (inputOf front back) := by
  obtain ⟨front, frontWritten, frontRead⟩ :=
    Json.read_write (portable_headerOf depth name)
  obtain ⟨back, backWritten, backRead⟩ := Json.read_of_readsAs reads
  refine ⟨bytesOf front, bytesOf back, recordOf_bytesOf frontRead,
    recordOf_bytesOf backRead, ?_⟩
  have written : Json.write? (header (.text name)) = some front :=
    frontWritten
  unfold signingInput?
  rw [written, backWritten]
  rfl

section Sealed

variable {secret name : String} {claims : Fields} {input : List UInt8}
  (lifetime : Value) (depth : Nat) (shared : name ∈ Algorithm.hashes.map Prod.fst)
  (written : signingInput? (.text name) claims = some input)

include shared written

theorem sealed_native (native : Key.isForeign secret.toList = false) :
    ∃ hash,
      Algorithm.ofName? (.text name) = some (.shared hash) ∧
        sealed ⟨.text secret, .text name, lifetime, depth⟩ claims =
          .ok (input ++
            point :: Base64.encode
              (Hmac.sign hash secret.toUTF8.toList input)) := by
  obtain ⟨named, hash, known⟩ := Algorithm.shared_of_mem_hashes shared
  refine ⟨hash, known, ?_⟩
  unfold sealed
  simp only [named, Bool.false_eq_true, if_false, written,
    Key.signing_shared known native]

theorem sealed_foreign (foreign : Key.isForeign secret.toList = true) :
    sealed ⟨.text secret, .text name, lifetime, depth⟩ claims =
      .error .unsigned := by
  obtain ⟨named, hash, known⟩ := Algorithm.shared_of_mem_hashes shared
  have unsigned :
      Key.signing (.text name) (.text secret) = .error .notShared := by
    unfold Key.signing
    rw [known]
    simp only [Key.secret, foreign, if_true]
    rfl
  unfold sealed
  simp only [named, Bool.false_eq_true, if_false, written, unsigned]

end Sealed

/-- Under its secret and algorithm a sealed token gives what its claims are read as,
when the secret names the key that it was signed with. -/
theorem exists_sealed
    {secret name : String} {claims payload : Fields} {depth : Nat}
    (lifetime : Value)
    (native : Key.isForeign secret.toList = false)
    (shared : name ∈ Algorithm.hashes.map Prod.fst)
    (reads :
      Json.ReadsAs (depth + 1) (.record claims) (.record payload)) :
    ∃ (token : String) (hash : Sha2.Member) (input : List UInt8),
      Algorithm.ofName? (.text name) = some (.shared hash) ∧
        sealed ⟨.text secret, .text name, lifetime, depth + 1⟩ claims =
          .ok token.toUTF8.toList ∧
        ∀ later,
          verified ⟨.text secret, .text name, later, depth + 1⟩
              token.toUTF8.toList =
            settled (.ok payload)
              (Key.verifies (depth + 1) (.text name) (.text secret)
                fun member bytes =>
                  Hmac.sign hash secret.toUTF8.toList input =
                    Hmac.sign member bytes input) := by
  obtain ⟨front, back, headRead, payloadRead, written⟩ :=
    exists_signingInput name reads
  obtain ⟨hash, known, signed⟩ :=
    sealed_native lifetime (depth + 1) shared written native
  obtain ⟨token, bytes⟩ :=
    exists_text_of_joined front back
      (Hmac.sign hash secret.toUTF8.toList (inputOf front back))
  refine ⟨token, hash, inputOf front back, known, ?_, fun later => ?_⟩
  · rw [signed, bytes]
    rfl
  · have named :
        namesAlgorithm ⟨.text secret, .text name, later, depth + 1⟩ (.text name) =
          true :=
      namesAlgorithm_self rfl (Algorithm.ne_empty_of_mem_hashes shared)
    rw [bytes, verified_joined headRead rfl named, payloadRead]

/-- A secret that stands for itself verifies what it has sealed. -/
theorem exists_genuine
    {secret name : String} {claims payload : Fields} {depth : Nat}
    (lifetime : Value)
    (stands : Key.StandsForItself (depth + 1) secret)
    (shared : name ∈ Algorithm.hashes.map Prod.fst)
    (reads :
      Json.ReadsAs (depth + 1) (.record claims) (.record payload)) :
    ∃ token : String,
      sealed ⟨.text secret, .text name, lifetime, depth + 1⟩ claims =
          .ok token.toUTF8.toList ∧
        ∀ later,
          verified ⟨.text secret, .text name, later, depth + 1⟩
              token.toUTF8.toList =
            .ok payload := by
  obtain ⟨token, hash, input, known, signed, verifiedAs⟩ :=
    exists_sealed lifetime stands.native shared reads
  refine ⟨token, signed, fun later => ?_⟩
  rw [verifiedAs later, Key.verifies_shared known stands, decide_eq_true rfl]
  rfl

/-- Claims that can be written and read back to this depth, and that are not refused
at this second for anything but their expiry. -/
structure Sound (depth : Nat) (claims : Fields) (second : Int) : Prop where
  portable : Json.Portable depth (.record claims)
  issued :
    ∀ claim, claims.get? "iat" = some claim → ∃ n, claim = .integer n
  started :
    ∀ claim, claims.get? "nbf" = some claim →
      ∃ n, claim = .integer n ∧ n ≤ second
  audience : claims.get? "aud" = none
  subject :
    ∀ claim, claims.get? "sub" = some claim → ∃ text, claim = .text text
  identifier :
    ∀ claim, claims.get? "jti" = some claim → ∃ text, claim = .text text
  accessHash : claims.get? "at_hash" = none

section Checks

variable {claims : Fields} {name : String}

theorem checkTime_whole
    {accepts : Int → Except Failure Bool}
    (whole :
      ∀ claim, claims.get? name = some claim →
        ∃ n, wholeNumber claim = .ok n ∧ accepts n = .ok true) :
    checkTime claims name accepts = .ok () := by
  unfold checkTime
  cases found : claims.get? name with
  | none =>
      rfl
  | some claim =>
      obtain ⟨n, same, accepted⟩ := whole claim found
      simp only [same, bind, Except.bind, accepted, if_true]

theorem checkClaim_text
    (text :
      ∀ claim, claims.get? name = some claim → ∃ s, claim = .text s) :
    checkClaim claims name isText = .ok () := by
  unfold checkClaim
  cases found : claims.get? name with
  | none =>
      rfl
  | some claim =>
      obtain ⟨s, rfl⟩ := text claim found
      rfl

theorem checkClaim_none
    (accepts : Value → Bool) (absent : claims.get? name = none) :
    checkClaim claims name accepts = .ok () := by
  unfold checkClaim
  rw [absent]

end Checks

/-- Claims with nothing else wrong stand the checks up to their expiry. -/
theorem check_of_expiry
    {claims : Fields} {expiry : Int} {time : Timestamp}
    (issued : checkTime claims "iat" (fun _ => .ok true) = .ok ())
    (started :
      checkTime claims "nbf"
          (compared (.ok time) fun time start => start ≤ time) =
        .ok ())
    (expires : claims.get? "exp" = some (.integer expiry))
    (audience : claims.get? "aud" = none)
    (subject : checkClaim claims "sub" isText = .ok ())
    (identifier : checkClaim claims "jti" isText = .ok ())
    (accessHash : claims.get? "at_hash" = none) :
    check (.ok time) claims =
      if time.seconds ≤ expiry then .ok () else .error rejected := by
  have fresh :
      checkTime claims "exp"
          (compared (.ok time) fun time expiry => time ≤ expiry) =
        if time.seconds ≤ expiry then .ok () else .error rejected := by
    have whole : wholeNumber (.integer expiry) = .ok expiry := rfl
    unfold checkTime
    rw [expires]
    simp only [whole, compared, Except.mapError, Except.map, bind, Except.bind,
      decide_eq_true_eq]
  unfold check
  rw [issued, started, fresh, checkClaim_none _ audience, subject, identifier,
    checkClaim_none _ accessHash]
  split <;> rfl

theorem check_ok
    {depth : Nat} {claims : Fields} {expiry : Int} {time : Timestamp}
    (sound : Sound depth claims time.seconds)
    (expires : claims.get? "exp" = some (.integer expiry))
    (unexpired : time.seconds ≤ expiry) :
    check (.ok time) claims = .ok () := by
  have issued : checkTime claims "iat" (fun _ => .ok true) = .ok () := by
    apply checkTime_whole
    intro claim found
    obtain ⟨n, rfl⟩ := sound.issued claim found
    exact ⟨n, rfl, rfl⟩
  have started :
      checkTime claims "nbf"
          (compared (.ok time) fun time start => start ≤ time) =
        .ok () := by
    apply checkTime_whole
    intro claim found
    obtain ⟨n, rfl, early⟩ := sound.started claim found
    exact ⟨n, rfl, congrArg Except.ok (decide_eq_true early)⟩
  rw [check_of_expiry issued started expires sound.audience
      (checkClaim_text sound.subject) (checkClaim_text sound.identifier)
      sound.accessHash,
    if_pos unexpired]

/-! ## The round trip -/

theorem seconds_of_dated
    {instant date : Int} (dated : Duration.dated instant = .ok date) :
    -62135596800 ≤ Int.fdiv date Timestamp.second ∧
      Int.fdiv date Timestamp.second < 253402300800 := by
  have first : Duration.yearStart 1 = -62135596800000000 := by decide
  have last : Duration.yearStart 10000 = 253402300800000000 := by decide
  unfold Duration.dated at dated
  split at dated
  · rename_i isDate
    cases dated
    simp only [Duration.isDate, first, last, Bool.and_eq_true,
      decide_eq_true_eq] at isDate
    unfold Timestamp.second
    rw [Int.fdiv_eq_ediv_of_nonneg _ (by decide)]
    omega
  · cases dated

/-- The expiry of a token lies in the years that dates have, and has few digits. -/
theorem countable_of_expiryNow
    {signer : Signer} {now : Except Clock.Fault Timestamp}
    {asked : Option Int} {second : Int}
    (expires : expiryNow signer now asked = .ok second) :
    Json.Countable second := by
  unfold expiryNow at expires
  obtain ⟨time, -, expires⟩ := exists_of_bind_eq_ok expires
  have expires := exists_of_mapError_eq_ok expires
  unfold expiry at expires
  obtain ⟨duration, -, expires⟩ := exists_of_bind_eq_ok expires
  obtain ⟨instant, reached, expires⟩ := exists_of_bind_eq_ok expires
  cases expires
  have bounds := seconds_of_dated reached
  apply Json.countable_of_small
  omega

/-- What is written for a claim: for a point in time its whole seconds, where a time
is expected. -/
def carried (claim : String × Value) : Except Duration.Fault Value :=
  if timeClaims.contains claim.1 then stamped claim.2 else .ok claim.2

theorem withTimes_of_carried
    {claims : Fields} {plain : String × Value → Value}
    (each : ∀ claim ∈ claims, carried claim = .ok (plain claim)) :
    withTimes claims = .ok (claims.map fun claim => (claim.1, plain claim)) := by
  unfold withTimes
  induction claims with
  | nil =>
      rfl
  | cons claim claims inductionHypothesis =>
      have first := each claim List.mem_cons_self
      have others :=
        inductionHypothesis fun claim member =>
          each claim (List.mem_cons_of_mem _ member)
      unfold carried at first
      rw [List.mapM_cons, others]
      split at first
      · rw [if_pos ‹_›, first]
        rfl
      · rw [if_neg ‹_›, List.map_cons, ← Except.ok.inj first]
        rfl

theorem carried_of_portable
    {depth : Nat} {claim : String × Value}
    (portable : Json.Portable depth claim.2) : carried claim = .ok claim.2 := by
  have same : stamped claim.2 = .ok claim.2 := by
    generalize claim.2 = value at portable ⊢
    cases portable <;> rfl
  unfold carried
  rw [same, ite_self]

/-- Portable claims hold no times that would have to be made whole seconds. -/
theorem withTimes_of_portable
    {claims : Fields}
    (each : ∀ claim ∈ claims, ∃ depth, Json.Portable depth claim.2) :
    withTimes claims = .ok claims := by
  have unchanged : ∀ claim ∈ claims, carried claim = .ok claim.2 := by
    intro claim member
    obtain ⟨depth, portable⟩ := each claim member
    exact carried_of_portable portable
  rw [withTimes_of_carried unchanged]
  exact congrArg Except.ok (List.map_id claims)

theorem Sound.set_expiry
    {depth : Nat} {claims : Fields} {second expiry : Int}
    (sound : Sound depth claims second) (countable : Json.Countable expiry) :
    Sound depth (claims.set "exp" (.integer expiry)) second where
  portable := sound.portable.set_integer "exp" countable
  issued := by
    rw [Fields.get?_set_of_ne (by decide)]
    exact sound.issued
  started := by
    rw [Fields.get?_set_of_ne (by decide)]
    exact sound.started
  audience := by
    rw [Fields.get?_set_of_ne (by decide)]
    exact sound.audience
  subject := by
    rw [Fields.get?_set_of_ne (by decide)]
    exact sound.subject
  identifier := by
    rw [Fields.get?_set_of_ne (by decide)]
    exact sound.identifier
  accessHash := by
    rw [Fields.get?_set_of_ne (by decide)]
    exact sound.accessHash

theorem claimsWith_of_portable
    {depth : Nat} {claims : Fields} {second : Int}
    (portable :
      Json.Portable depth (.record (claims.set "exp" (.integer second)))) :
    claimsWith claims second = .ok (claims.set "exp" (.integer second)) := by
  cases portable with
  | record _ each =>
      exact withTimes_of_portable fun claim member => ⟨_, each claim member⟩

theorem make_record
    {signer : Signer} {now : Except Clock.Fault Timestamp}
    {asked : Option Int} {claims : Fields} {expiry : Int} {depth : Nat}
    (expires : expiryNow signer now asked = .ok expiry)
    (portable :
      Json.Portable depth (.record (claims.set "exp" (.integer expiry)))) :
    make signer now asked (.record claims) =
      sealed signer (claims.set "exp" (.integer expiry)) := by
  unfold make
  rw [expires]
  simp only [bind, Except.bind, claimsWith_of_portable portable]
  rfl

section RoundTrip

variable {secret name : String} {lifetime : Value} {depth : Nat}
  {now : Except Clock.Fault Timestamp} {asked : Option Int}
  {claims : Fields} {expiry : Int} {time : Timestamp}

/-- Under its secret and algorithm a token gives what it was made of, when the secret
names the key that it was signed with. -/
theorem exists_made
    (native : Key.isForeign secret.toList = false)
    (shared : name ∈ Algorithm.hashes.map Prod.fst)
    (portable : Json.Portable depth (.record claims))
    (expires :
      expiryNow ⟨.text secret, .text name, lifetime, depth⟩ now asked =
        .ok expiry) :
    ∃ (token : String) (hash : Sha2.Member) (input : List UInt8),
      Algorithm.ofName? (.text name) = some (.shared hash) ∧
        make ⟨.text secret, .text name, lifetime, depth⟩ now asked
            (.record claims) =
          .ok token.toUTF8.toList ∧
        ∀ later,
          verified ⟨.text secret, .text name, later, depth⟩
              token.toUTF8.toList =
            settled (.ok (claims.set "exp" (.integer expiry)))
              (Key.verifies depth (.text name) (.text secret)
                fun member bytes =>
                  Hmac.sign hash secret.toUTF8.toList input =
                    Hmac.sign member bytes input) := by
  obtain ⟨inner, rfl⟩ := portable.exists_depth
  have portableSet :=
    portable.set_integer "exp" (countable_of_expiryNow expires)
  obtain ⟨token, hash, input, known, signed, verifiedAs⟩ :=
    exists_sealed lifetime native shared portableSet.readsBack
  refine ⟨token, hash, input, known, ?_, verifiedAs⟩
  rw [make_record expires portableSet, signed]

/-- A secret that names no key signs tokens, and no check of them comes to an end. -/
theorem key_fault_of_make
    {fault : Key.Fault} (later : Value)
    (checking : Except Clock.Fault Timestamp)
    (native : Key.isForeign secret.toList = false)
    (nameless :
      ∀ fits,
        Key.verifies depth (.text name) (.text secret) fits = .error fault)
    (shared : name ∈ Algorithm.hashes.map Prod.fst)
    (portable : Json.Portable depth (.record claims))
    (expires :
      expiryNow ⟨.text secret, .text name, lifetime, depth⟩ now asked =
        .ok expiry) :
    ∃ token : String,
      make ⟨.text secret, .text name, lifetime, depth⟩ now asked
          (.record claims) =
          .ok token.toUTF8.toList ∧
        claimsOfValue ⟨.text secret, .text name, later, depth⟩ checking
            (.text token) =
          .error (.key fault) := by
  obtain ⟨token, hash, input, known, made, verifiedAs⟩ :=
    exists_made native shared portable expires
  refine ⟨token, made, ?_⟩
  unfold claimsOfValue claimsOf
  simp only [verifiedAs later, nameless]
  rfl

theorem make_foreign
    (foreign : Key.isForeign secret.toList = true)
    (shared : name ∈ Algorithm.hashes.map Prod.fst)
    (portable : Json.Portable depth (.record claims))
    (expires :
      expiryNow ⟨.text secret, .text name, lifetime, depth⟩ now asked =
        .ok expiry) :
    make ⟨.text secret, .text name, lifetime, depth⟩ now asked
        (.record claims) =
      .error .unsigned := by
  obtain ⟨inner, rfl⟩ := portable.exists_depth
  have portableSet :=
    portable.set_integer "exp" (countable_of_expiryNow expires)
  obtain ⟨front, back, headRead, claimsRead, written⟩ :=
    exists_signingInput name portableSet.readsBack
  rw [make_record expires portableSet,
    sealed_foreign lifetime _ shared written foreign]

/-- A token made from sound claims is accepted until its expiry, and gives the
claims back with the expiry among them. -/
theorem claimsOf_make
    (later : Value)
    (stands : Key.StandsForItself depth secret)
    (shared : name ∈ Algorithm.hashes.map Prod.fst)
    (sound : Sound depth claims time.seconds)
    (expires :
      expiryNow ⟨.text secret, .text name, lifetime, depth⟩ now asked =
        .ok expiry)
    (unexpired : time.seconds ≤ expiry) :
    ∃ token : String,
      make ⟨.text secret, .text name, lifetime, depth⟩ now asked
          (.record claims) =
          .ok token.toUTF8.toList ∧
        claimsOfValue ⟨.text secret, .text name, later, depth⟩ (.ok time)
            (.text token) =
          .ok (claims.set "exp" (.integer expiry)) := by
  obtain ⟨token, hash, input, known, made, verifiedAs⟩ :=
    exists_made stands.native shared sound.portable expires
  have read :
      verified ⟨.text secret, .text name, later, depth⟩
          token.toUTF8.toList =
        .ok (claims.set "exp" (.integer expiry)) := by
    rw [verifiedAs later, Key.verifies_shared known stands, decide_eq_true rfl]
    rfl
  have checked :
      check (.ok time) (claims.set "exp" (.integer expiry)) = .ok () :=
    check_ok (sound.set_expiry (countable_of_expiryNow expires))
      (Fields.get?_set_self claims "exp" _) unexpired
  refine ⟨token, made, ?_⟩
  unfold claimsOfValue claimsOf
  simp only [read, bind, Except.bind, checked]

end RoundTrip

def passTime : Timestamp :=
  .ofMicroseconds 1704067200000000

def passClaims : Fields :=
  [("sub", .text "abc"), ("exp", .integer 0),
    ("unit", .list [.text "caf\u00e9 😀", .null, .integer (-7)]),
    ("nbf", .integer 1704067200),
    ("more", .record [("", .boolean true)])]

theorem expiryNow_pass (signer : Signer) :
    expiryNow signer (.ok passTime) (some 60000000) = .ok 1704067260 :=
  rfl

theorem passClaims_sound : Sound Json.deepest passClaims passTime.seconds where
  portable := by
    have names :
        Fields.names passClaims = ["sub", "exp", "unit", "nbf", "more"] :=
      rfl
    refine .record (by rw [names]; decide) fun field member => ?_
    simp only [passClaims, List.mem_cons, List.not_mem_nil,
      or_false] at member
    rcases member with rfl | rfl | rfl | rfl | rfl
    · exact .text _ _
    · exact .integer _ (Json.countable_of_small (by decide))
    · refine .list fun item member => ?_
      simp only [List.mem_cons, List.not_mem_nil, or_false] at member
      rcases member with rfl | rfl | rfl
      · exact .text _ _
      · exact .null _
      · exact .integer _ (Json.countable_of_small (by decide))
    · exact .integer _ (Json.countable_of_small (by decide))
    · refine .record (by decide) fun field member => ?_
      rw [List.mem_singleton.mp member]
      exact .boolean _ true
  issued := by
    intro claim found
    cases found
  started := by
    intro claim found
    cases found
    exact ⟨1704067200, rfl, by decide⟩
  audience := rfl
  subject := by
    intro claim found
    cases found
    exact ⟨_, rfl⟩
  identifier := by
    intro claim found
    cases found
  accessHash := rfl

theorem pass_accepted :
    (Key.StandsForItself Json.deepest "secret" ∧
      "HS512" ∈ Algorithm.hashes.map Prod.fst ∧
      Sound Json.deepest passClaims passTime.seconds ∧
      expiryNow ⟨.text "secret", .text "HS512", .null, Json.deepest⟩ (.ok passTime)
          (some 60000000) =
        .ok 1704067260 ∧
      passTime.seconds ≤ 1704067260) ∧
      ∃ token : String,
        make ⟨.text "secret", .text "HS512", .null, Json.deepest⟩ (.ok passTime)
            (some 60000000) (.record passClaims) =
          .ok token.toUTF8.toList ∧
        claimsOfValue ⟨.text "secret", .text "HS512", .null, Json.deepest⟩
            (.ok passTime) (.text token) =
          .ok (passClaims.set "exp" (.integer 1704067260)) := by
  have stands : Key.StandsForItself Json.deepest "secret" :=
    ⟨Key.not_isForeign_of_notMem (by decide), rfl⟩
  have shared : "HS512" ∈ Algorithm.hashes.map Prod.fst := by
    decide
  have unexpired : passTime.seconds ≤ 1704067260 := by
    decide
  exact
    ⟨⟨stands, shared, passClaims_sound, expiryNow_pass _, unexpired⟩,
      claimsOf_make .null stands shared passClaims_sound (expiryNow_pass _)
        unexpired⟩

/-- Under the secret `null`, which names no key, the pass is made and cannot be
checked; with a key of a remote login it is not even made. -/
theorem pass_lost :
    Sound Json.deepest passClaims passTime.seconds ∧
      (∃ token : String,
        make ⟨.text "null", .text "HS256", .null, Json.deepest⟩ (.ok passTime)
            (some 60000000) (.record passClaims) =
          .ok token.toUTF8.toList ∧
        claimsOfValue ⟨.text "null", .text "HS256", .null, Json.deepest⟩
            (.ok passTime) (.text token) =
          .error (.key .notSecret)) ∧
      make ⟨.text "ssh-rsa AAAA", .text "HS256", .null, Json.deepest⟩ (.ok passTime)
          (some 60000000) (.record passClaims) =
        .error .unsigned := by
  have shared : "HS256" ∈ Algorithm.hashes.map Prod.fst := by
    decide
  refine ⟨passClaims_sound, ?_, ?_⟩
  · exact
      key_fault_of_make .null (.ok passTime)
        (Key.not_isForeign_of_notMem (by decide)) (fun _ => rfl) shared
        passClaims_sound.portable (expiryNow_pass _)
  · have foreign : Key.isForeign "ssh-rsa AAAA".toList = true :=
      Key.isForeign_of_mem_loginKinds
        (show "ssh-rsa" ∈ Key.loginKinds by decide) (by decide)
    exact
      make_foreign foreign shared passClaims_sound.portable
        (expiryNow_pass _)

end Token

end AccessControl
