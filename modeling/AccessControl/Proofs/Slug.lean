import AccessControl.Proofs.Isolation

/-!
# The names that units give to collections

A unit is accepted when its slug is made of letters, digits and hyphens and has no
hyphen in front.  Two accepted units give a collection the same name just when they
have the same slug, and none gives it the name of a shared one: `collections_apart`.
-/

namespace AccessControl

namespace Text

/-- What is left of a text does not end with a character that is cut off. -/
theorem last_of_trim
    {cut : Char → Bool} {text front : List Char} {last : Char}
    (trimmed : trim cut text = front ++ [last]) : cut last = false := by
  have turned :
      (text.dropWhile cut).reverse.dropWhile cut = last :: front.reverse := by
    have reversed := congrArg List.reverse trimmed
    rw [trim, List.reverse_reverse, List.reverse_append] at reversed
    exact reversed
  have filled : (text.dropWhile cut).reverse.dropWhile cut ≠ [] := by
    rw [turned]
    exact List.cons_ne_nil _ _
  have kept := List.head_dropWhile_not cut filled
  simp only [turned, List.head_cons] at kept
  exact kept

/-- Lower case makes no line feed of another character. -/
theorem eq_lineFeed_of_mem_lower {c : Char} (member : '\n' ∈ lower c) :
    c = '\n' := by
  unfold lower at member
  split at member
  · rename_i capital
    simp only [Bool.and_eq_true, decide_eq_true_eq] at capital
    have every :
        ∀ n : Fin 26, '\n' ≠ Char.ofNat (0x41 + n + 0x20) := by
      decide
    have code : 0x41 + (c.toNat - 0x41) = c.toNat := by
      omega
    have different := every ⟨c.toNat - 0x41, by omega⟩
    simp only [code] at different
    exact absurd (List.mem_singleton.mp member) different
  · split at member
    · exact absurd member (by decide)
    · split at member
      · exact absurd member (by decide)
      · exact (List.mem_singleton.mp member).symm

theorem lower_ne_nil (c : Char) : lower c ≠ [] := by
  unfold lower
  split
  · exact List.cons_ne_nil _ _
  · split
    · exact List.cons_ne_nil _ _
    · split <;> exact List.cons_ne_nil _ _

end Text

namespace Tenant

/-- The letters, digits and the hyphen that slugs are made of. -/
def slugCharacters : List Char :=
  "abcdefghijklmnopqrstuvwxyz0123456789-".toList

theorem isSlugCharacter_iff {c : Char} :
    isSlugCharacter c = true ↔ c ∈ slugCharacters := by
  constructor
  · intro isSlugCharacter
    have every :
        ∀ n : Fin 128, Tenant.isSlugCharacter (Char.ofNat n) = true →
          Char.ofNat n ∈ slugCharacters := by
      decide
    have ascii : c.toNat < 128 := by
      simp only [Tenant.isSlugCharacter, Text.isDigit, Bool.or_eq_true, Bool.and_eq_true,
        decide_eq_true_eq, beq_iff_eq] at isSlugCharacter
      rcases isSlugCharacter with (letter | digit) | rfl
      · omega
      · omega
      · decide
    have own := every ⟨c.toNat, ascii⟩
    rw [Char.ofNat_toNat] at own
    exact own isSlugCharacter
  · have every : slugCharacters.all isSlugCharacter = true := by
      decide
    exact List.all_eq_true.mp every c

/-- The pattern of slugs: a letter or a digit, then letters, digits and hyphens up to
the end of the text or up to a line feed at the end. -/
def FitsPattern (text : List Char) : Prop :=
  ∃ first rest ending,
    text = first :: rest ++ ending ∧
      first ∈ slugCharacters ∧ first ≠ '-' ∧
        (∀ c ∈ rest, c ∈ slugCharacters) ∧ (ending = [] ∨ ending = ['\n'])

theorem isSlug_iff {text : List Char} :
    isSlug text = true ↔
      text ≠ [] ∧ (∀ c ∈ text, c ∈ slugCharacters) ∧ text.head? ≠ some '-' := by
  cases text with
  | nil =>
      simp [isSlug]
  | cons first rest =>
      simp [isSlug, isSlugCharacter_iff, and_comm]

/-- A slug does not end with a line feed, which would have been cut off. -/
theorem slug_ne_append_lineFeed (unit front : List Char) :
    slug unit ≠ front ++ ['\n'] := by
  intro ends
  unfold slug at ends
  rcases List.eq_nil_or_concat (Text.trim Text.isBlank unit) with
    empty | ⟨earlier, last, trimmed⟩
  · rw [empty] at ends
    simp at ends
  · rw [List.concat_eq_append] at trimmed
    rw [trimmed, List.flatMap_append, List.flatMap_singleton] at ends
    obtain ⟨lowered, final, split⟩ :=
      (List.eq_nil_or_concat (Text.lower last)).resolve_left
        (Text.lower_ne_nil last)
    rw [List.concat_eq_append] at split
    rw [split, ← List.append_assoc] at ends
    have same : final = '\n' :=
      List.singleton_inj.mp (List.append_inj_right' ends rfl)
    have lineFeed : last = '\n' := by
      apply Text.eq_lineFeed_of_mem_lower
      rw [split, same]
      exact List.mem_append_right _ List.mem_cons_self
    have kept := Text.last_of_trim trimmed
    rw [lineFeed] at kept
    exact absurd kept (by decide)

/-- The line feed that the pattern lets pass at the end is never there. -/
theorem fitsPattern_slug_iff (unit : List Char) :
    FitsPattern (slug unit) ↔ isSlug (slug unit) = true := by
  rw [isSlug_iff]
  constructor
  · rintro ⟨first, rest, ending, split, letter, unhyphened, others, ended⟩
    rcases ended with rfl | rfl
    · rw [List.append_nil] at split
      rw [split, List.forall_mem_cons]
      exact
        ⟨List.cons_ne_nil _ _, ⟨letter, others⟩,
          fun same => unhyphened (Option.some_inj.mp same)⟩
    · exact absurd split (slug_ne_append_lineFeed unit _)
  · rintro ⟨filled, each, unhyphened⟩
    cases found : slug unit with
    | nil =>
        exact absurd found filled
    | cons first rest =>
        rw [found, List.forall_mem_cons] at each
        rw [found] at unhyphened
        exact
          ⟨first, rest, [], (List.append_nil _).symm, each.1,
            fun same => unhyphened (congrArg some same), each.2, .inl rfl⟩

/-! ## Names of collections -/

theorem exists_ofUnit_iff {unit : String} :
    (∃ tenant, ofUnit unit = .ok tenant) ↔
      isSlug (slug unit.toList) = true := by
  simp only [ofUnit_eq_ok_iff, exists_and_left, exists_eq, and_true]

theorem mem_stem
    {unit : String} {tenant : Tenant} (accepted : ofUnit unit = .ok tenant)
    {c : Char} (member : c ∈ tenant.stem.toList) :
    c ∈ "abcdefghijklmnopqrstuvwxyz0123456789_".toList := by
  have every :
      (slugCharacters.all fun c =>
        "abcdefghijklmnopqrstuvwxyz0123456789_".toList.contains
          (if c = '-' then '_' else c)) =
        true := by
    decide
  obtain ⟨isSlug, rfl⟩ := ofUnit_eq_ok_iff.mp accepted
  rw [String.toList_ofList, underscored, List.mem_map] at member
  obtain ⟨d, inSlug, rfl⟩ := member
  have member := (isSlug_iff.mp isSlug).2.1 d inSlug
  exact List.contains_iff_mem.mp (List.all_eq_true.mp every d member)

theorem underscore_mem_collection (tenant : Tenant) (name : String) :
    '_' ∈ (tenant.collection name).toList := by
  simp [collection, toString]

/-- A unit is accepted just when its slug fits the pattern, which is to say, is filled,
made of letters, digits and hyphens, and has no hyphen in front.  Accepted units
give names of collections that begin with letters, digits and underscores, that are
the same only for one slug and one name, and that no shared collection has. -/
theorem collections_apart (unit other : String) :
    ((∃ tenant, ofUnit unit = .ok tenant) ↔
        FitsPattern (slug unit.toList)) ∧
      ((∃ tenant, ofUnit unit = .ok tenant) ↔
        slug unit.toList ≠ [] ∧
          (∀ c ∈ slug unit.toList, c ∈ slugCharacters) ∧
            (slug unit.toList).head? ≠ some '-') ∧
      ∀ tenant, ofUnit unit = .ok tenant →
        (∀ c ∈ tenant.stem.toList,
          c ∈ "abcdefghijklmnopqrstuvwxyz0123456789_".toList) ∧
        (∀ name shared, '_' ∉ shared.toList →
          tenant.collection name ≠ sharedCollection shared) ∧
        ∀ otherTenant, ofUnit other = .ok otherTenant →
          ∀ first second, '_' ∉ first.toList → '_' ∉ second.toList →
            (tenant.collection first = otherTenant.collection second ↔
              first = second ∧ slug unit.toList = slug other.toList) := by
  refine ⟨?_, ?_, fun tenant accepted => ⟨?_, ?_, ?_⟩⟩
  · rw [exists_ofUnit_iff, fitsPattern_slug_iff]
  · rw [exists_ofUnit_iff, isSlug_iff]
  · exact fun c member => mem_stem accepted member
  · intro name shared plain same
    have underscore := underscore_mem_collection tenant name
    rw [same] at underscore
    exact plain underscore
  · intro otherTenant acceptedToo first second notFirst notSecond
    rw [collection_eq_iff notFirst notSecond,
      stem_eq_iff accepted acceptedToo, and_comm]

/-- A unit with blanks around it and one that is spelled with a Kelvin sign have
collections of their own. -/
theorem spelledUnits_apart :
    (ofUnit " Blue-Sky\n" = .ok ⟨" Blue-Sky\n", "blue_sky"⟩ ∧
      ofUnit "\u212aey" = .ok ⟨"\u212aey", "key"⟩ ∧
      '_' ∉ "policies".toList ∧ '_' ∉ "units".toList) ∧
      FitsPattern (slug " Blue-Sky\n".toList) ∧
      (Tenant.mk " Blue-Sky\n" "blue_sky").collection "policies" ≠
        sharedCollection "units" ∧
      ((Tenant.mk " Blue-Sky\n" "blue_sky").collection "policies" =
          (Tenant.mk "\u212aey" "key").collection "policies" ↔
        "policies" = "policies" ∧
          slug " Blue-Sky\n".toList = slug "\u212aey".toList) := by
  have first : ofUnit " Blue-Sky\n" = .ok ⟨" Blue-Sky\n", "blue_sky"⟩ := rfl
  have second : ofUnit "\u212aey" = .ok ⟨"\u212aey", "key"⟩ := rfl
  have policies : '_' ∉ "policies".toList := by
    decide
  have units : '_' ∉ "units".toList := by
    decide
  obtain ⟨accepts, -, apart⟩ := collections_apart " Blue-Sky\n" "\u212aey"
  obtain ⟨-, unshared, told⟩ := apart _ first
  exact
    ⟨⟨first, second, policies, units⟩, accepts.mp ⟨_, first⟩,
      unshared "policies" "units" units,
      told _ second "policies" "policies" policies policies⟩

end Tenant

end AccessControl
