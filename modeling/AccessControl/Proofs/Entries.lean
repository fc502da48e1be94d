import AccessControl.Proofs.Consistency

/-!
# What a principal is given

The policies that count for a principal are read off the documents of its tenant as
entries, each beside the identifier that names it, whatever stands in the principal's
list of groups.  Loading gives just these policies, or fails where the entries
cannot be read: `Operation.run_load`.
-/

namespace AccessControl

namespace Registry

/-- The documents of groups among which the groups that a value names are looked up. -/
def groupsAmong (documents : List Fields) (groups : Value) :
    Except Failure (List Fields) :=
  match groups with
  | .list ids =>
      .ok (documents.filter (Filter.admits [("_id", .oneOf ids)]))
  | other => documents.filterM (isNamedIn other)

/-- The documents with these names, in the order of the names; names that nobody has are
passed over. -/
def documentsOf (found : List Fields) : List Value → Except Failure (List Fields)
  | [] => .ok []
  | name :: rest =>
      if name.isKey then
        match documentOf found name with
        | some document => (document :: ·) <$> documentsOf found rest
        | none => documentsOf found rest
      else .error (.notKey name)

/-- The documents of the groups that a value names, each as often as it is named. -/
def namedGroups (documents : List Fields) (groups : Value) :
    Except Failure (List Fields) :=
  if groups.isTruthy then do
    let found ← groupsAmong documents groups
    let names ← groups.entries
    documentsOf found names
  else .ok []

theorem mem_of_mem_filterM
    {passes : Fields → Except Failure Bool} {documents kept : List Fields}
    (filtered : documents.filterM passes = .ok kept) {document : Fields}
    (member : document ∈ kept) :
    document ∈ documents := by
  -- What passes is gathered in front of what was taken before.
  have gathered (items taken all : List Fields)
      (ended : items.filterAuxM passes taken = .ok all) :
      ∀ item ∈ all, item ∈ items ∨ item ∈ taken := by
    induction items generalizing taken with
    | nil =>
        cases ended
        exact fun item member => .inr member
    | cons first rest inductionHypothesis =>
        obtain ⟨passed, asked, onward⟩ := exists_of_bind_eq_ok ended
        intro item among
        rcases inductionHypothesis _ onward item among with later | earlier
        · exact .inl (List.mem_cons_of_mem _ later)
        · cases passed with
          | false =>
              exact .inr earlier
          | true =>
              rcases List.mem_cons.mp earlier with rfl | before
              · exact .inl List.mem_cons_self
              · exact .inr before
  obtain ⟨all, ended, reversed⟩ := exists_of_bind_eq_ok filtered
  cases reversed
  rcases gathered documents [] all ended document (List.mem_reverse.mp member)
    with inside | outside
  · exact inside
  · cases outside

theorem mem_of_mem_groupsAmong
    {documents found : List Fields} {groups : Value}
    (searched : groupsAmong documents groups = .ok found)
    {document : Fields} (member : document ∈ found) :
    document ∈ documents := by
  cases groups with
  | list ids =>
      cases searched
      exact (List.mem_filter.mp member).1
  | _ =>
      exact mem_of_mem_filterM searched member

theorem mem_of_mem_documentsOf
    {found named : List Fields} {names : List Value}
    (looked : documentsOf found names = .ok named)
    {document : Fields} (member : document ∈ named) :
    document ∈ found := by
  induction names generalizing named with
  | nil =>
      cases looked
      cases member
  | cons name rest inductionHypothesis =>
      unfold documentsOf at looked
      split at looked
      · split at looked
        · rename_i first firstFound
          cases further : documentsOf found rest with
          | error failure =>
              rw [further] at looked
              cases looked
          | ok others =>
              rw [further] at looked
              cases looked
              rcases List.mem_cons.mp member with rfl | later
              · exact
                  List.mem_reverse.mp (List.mem_of_find?_eq_some firstFound)
              · exact inductionHypothesis further later
        · exact inductionHypothesis looked member
      · cases looked

theorem mem_of_mem_namedGroups
    {documents named : List Fields} {groups : Value}
    (searched : namedGroups documents groups = .ok named)
    {document : Fields} (member : document ∈ named) :
    document ∈ documents := by
  unfold namedGroups at searched
  split at searched
  · obtain ⟨found, among, onward⟩ := exists_of_bind_eq_ok searched
    obtain ⟨names, -, looked⟩ := exists_of_bind_eq_ok onward
    exact mem_of_mem_groupsAmong among (mem_of_mem_documentsOf looked member)
  · cases searched
    cases member

end Registry

theorem Registry.filterM_map
    {change : Fields → Fields}
    {passes : Fields → Except Failure Bool}
    (asked : ∀ document, passes (change document) = passes document)
    (documents : List Fields) :
    (documents.map change).filterM passes =
      (documents.filterM passes).map (List.map change) := by
  have gathered (items taken : List Fields) :
      (items.map change).filterAuxM passes (taken.map change) =
        (items.filterAuxM passes taken).map (List.map change) := by
    induction items generalizing taken with
    | nil =>
        rfl
    | cons first rest inductionHypothesis =>
        rw [List.map_cons, List.filterAuxM, List.filterAuxM, asked]
        cases passes first with
        | error failure =>
            rfl
        | ok passed =>
            cases passed with
            | false =>
                exact inductionHypothesis taken
            | true =>
                exact inductionHypothesis (first :: taken)
  unfold List.filterM
  have all := gathered documents []
  rw [List.map_nil] at all
  rw [all]
  cases documents.filterAuxM passes [] with
  | error failure =>
      rfl
  | ok found =>
      exact congrArg Except.ok List.map_reverse.symm

section Changed

variable {change : Fields → Fields}
  (kept : ∀ document, (change document).get? "_id" = document.get? "_id")

include kept

theorem Keyed.map
    {documents : List Fields} (keyed : Keyed documents) :
    Keyed (documents.map change) := by
  constructor
  · intro document member
    obtain ⟨old, inDocuments, rfl⟩ := List.mem_map.mp member
    have plain := keyed.plain old inDocuments
    unfold plainId at plain ⊢
    rw [kept]
    exact plain
  · have distinct := keyed.distinct
    unfold Fields.Apart at distinct ⊢
    have same : (Fields.get? · "_id") ∘ change = (Fields.get? · "_id") :=
      funext kept
    rw [List.filterMap_map, same]
    exact distinct

namespace Registry

theorem documentOf_map (found : List Fields) (name : Value) :
    documentOf (found.map change) name =
      (documentOf found name).map change := by
  have asked :
      ((fun document => name.same (fieldOf document "_id")) ∘ change) =
        fun document => name.same (fieldOf document "_id") := by
    funext document
    simp only [Function.comp_apply, fieldOf, kept]
  unfold documentOf
  rw [← List.map_reverse, List.find?_map, asked]

theorem groupsAmong_map (documents : List Fields) (groups : Value) :
    groupsAmong (documents.map change) groups =
      (groupsAmong documents groups).map (List.map change) := by
  have named (other : Value) (document : Fields) :
      isNamedIn other (change document) = isNamedIn other document := by
    simp only [isNamedIn, fieldOf, kept]
  cases groups with
  | list ids =>
      have admitted :
          Filter.admits [("_id", .oneOf ids)] ∘ change =
            Filter.admits [("_id", .oneOf ids)] := by
        funext document
        simp only [Function.comp_apply, Filter.admits, List.all_cons,
          List.all_nil, kept]
      refine congrArg Except.ok ?_
      rw [List.filter_map, admitted]
  | _ =>
      exact filterM_map (named _) documents

theorem documentsOf_map (found : List Fields) (names : List Value) :
    documentsOf (found.map change) names =
      (documentsOf found names).map (List.map change) := by
  induction names with
  | nil =>
      rfl
  | cons name rest inductionHypothesis =>
      unfold documentsOf
      rw [documentOf_map kept, inductionHypothesis]
      cases name.isKey with
      | false =>
          rfl
      | true =>
          cases documentOf found name with
          | none =>
              rfl
          | some document =>
              cases documentsOf found rest <;> rfl

theorem namedGroups_map (documents : List Fields) (groups : Value) :
    namedGroups (documents.map change) groups =
      (namedGroups documents groups).map (List.map change) := by
  unfold namedGroups
  rw [groupsAmong_map kept]
  cases groups.isTruthy with
  | false =>
      rfl
  | true =>
      cases groupsAmong documents groups with
      | error failure =>
          rfl
      | ok found =>
          cases groups.entries with
          | error failure =>
              rfl
          | ok names =>
              exact documentsOf_map kept found names

end Registry

end Changed

namespace Holdings

/-- The policy identifiers that count for the principal with this document, as far as its
groups can be read. -/
def namedIds (holdings : Holdings) (document : Fields) :
    Except Failure (List ObjectId) :=
  (Registry.namedGroups holdings.groups
      (Registry.fieldOf document "groups")).map fun found =>
    document.listed "policies" ++ found.flatMap (Fields.listed · "policies")

/-- The valid policy with this identifier, beside the identifier. -/
def namedPolicy? (holdings : Holdings) (id : ObjectId) :
    Option (ObjectId × Policy) :=
  (holdings.policy? id).map fun policy => (id, policy)

/-- The policies that count for a principal, each beside the identifier that names it. -/
def entries (holdings : Holdings) (principal : Value) :
    Except Failure (List (ObjectId × Policy)) :=
  match principal.recordId? with
  | none => .ok []
  | some id =>
      match holdings.principals.find? (hasId id) with
      | none => .ok []
      | some document =>
          (holdings.namedIds document).map (List.filterMap holdings.namedPolicy?)

theorem filterMap_namedPolicy? (holdings : Holdings) (ids : List ObjectId) :
    (ids.filterMap holdings.namedPolicy?).map Prod.snd =
      ids.filterMap holdings.policy? := by
  rw [List.map_filterMap]
  refine congrArg (List.filterMap · ids) (funext fun id => ?_)
  unfold namedPolicy?
  cases holdings.policy? id <;> rfl

end Holdings

/-! ## Loading gives the entries -/

namespace Registry

variable (tenant : Tenant) (store : Store)

theorem finish_groupsIn (groups : Value) :
    ∃ left,
      left.Same store ∧
        Program.finish Program.undisturbed (groupsIn tenant groups) store =
          (groupsAmong (tenant.holdings store).groups groups, left) := by
  have searched (filter : Filter) :=
    Program.finish_query_of_reads (Deed.reads_find filter) tenant.groups store
  have filtered (other : Value) :
      ∃ left,
        left.Same store ∧
          Program.finish Program.undisturbed
              (Program.query tenant.groups (.find []) >>=
                fun documents : List Fields =>
                  Program.ofExcept (documents.filterM (isNamedIn other)))
              store =
            ((tenant.holdings store).groups.filterM (isNamedIn other),
              left) := by
    obtain ⟨left, same, found⟩ := searched []
    refine ⟨left, same, (Program.finish_bind_of_ok found).trans ?_⟩
    have everything :
        (Deed.find []).reply (store.documents tenant.groups) =
          (tenant.holdings store).groups :=
      List.filter_eq_self.mpr fun _ _ => rfl
    rw [everything]
    rfl
  cases groups with
  | list ids =>
      exact searched _
  | _ =>
      exact filtered _

variable {tenant} {store}

theorem finish_gather_named
    {found : List Fields}
    (lists : ∀ document ∈ found, document.Lists "policies")
    (unit : String) (names : List Value) (left : Store) :
    Program.finish Program.undisturbed (gather unit found names) left =
      ((documentsOf found names).map fun documents =>
        (documents.flatMap (Fields.listed · "policies")).map .id, left) := by
  induction names with
  | nil =>
      rfl
  | cons name rest inductionHypothesis =>
      unfold gather documentsOf
      cases name.isKey with
      | false =>
          rfl
      | true =>
          cases looked : documentOf found name with
          | none =>
              exact inductionHypothesis
          | some document =>
              have member : document ∈ found :=
                List.mem_reverse.mp (List.mem_of_find?_eq_some looked)
              simp only [Bool.not_true, Bool.false_eq_true, if_false, if_true,
                entries_of_lists (lists document member), Program.finish_bind,
                Program.finish_pure, Program.finish_ofExcept,
                inductionHypothesis]
              cases documentsOf found rest with
              | error failure =>
                  rfl
              | ok documents =>
                  have joined :
                      (document.listed "policies").map Value.id ++
                          (documents.flatMap
                            (Fields.listed · "policies")).map Value.id =
                        ((document :: documents).flatMap
                          (Fields.listed · "policies")).map Value.id := by
                    rw [List.flatMap_cons, List.map_append]
                  exact congrArg (fun values => (Except.ok values, left)) joined

theorem finish_namedPolicyIds
    (lists :
      ∀ document ∈ (tenant.holdings store).groups, document.Lists "policies")
    (groups : Value) :
    ∃ left,
      left.Same store ∧
        Program.finish Program.undisturbed (groupPolicyIds tenant groups)
            store =
          ((namedGroups (tenant.holdings store).groups groups).map
            fun documents =>
              (documents.flatMap (Fields.listed · "policies")).map .id,
            left) := by
  unfold groupPolicyIds namedGroups
  cases groups.isTruthy with
  | false =>
      exact ⟨store, .refl store, rfl⟩
  | true =>
      obtain ⟨left, same, searched⟩ := finish_groupsIn tenant store groups
      refine ⟨left, same, ?_⟩
      simp only [if_true]
      cases among : groupsAmong (tenant.holdings store).groups groups with
      | error failure =>
          rw [among] at searched
          exact Program.finish_bind_of_error searched
      | ok found =>
          rw [among] at searched
          rw [Program.finish_bind_of_ok searched]
          cases groups.entries with
          | error failure =>
              rfl
          | ok names =>
              exact finish_gather_named
                (fun document member =>
                  lists document (mem_of_mem_groupsAmong among member))
                tenant.unit names left

end Registry

theorem Program.undisturbed_rearranges : Rearranges undisturbed :=
  fun _ _ _ => .refl _

theorem Store.Same.rearranged
    {first second : Store} (same : first.Same second) :
    first.Rearranged second := by
  intro name
  rw [same]

/-- The answer that gives the policies of these entries. -/
def Operation.Answer.ofEntries (entries : List (ObjectId × Policy)) :
    Operation.Answer :=
  .policies (entries.map Prod.snd)

/-- Where nobody interferes, a principal is given the policies of its entries. -/
theorem Operation.run_load
    {tenant : Tenant} {store : Store}
    (keyed : (tenant.holdings store).Keyed)
    (lists :
      ∀ document ∈ (tenant.holdings store).members,
        document.Lists "policies")
    (principal : Value) :
    ((load principal).run tenant store).1 =
      ((tenant.holdings store).entries principal).map .ofEntries := by
  rw [run_eq_map tenant store rfl]
  unfold Registry.effective Holdings.entries
  cases principal.recordId? with
  | none =>
      rfl
  | some id =>
      obtain ⟨left, same, searched⟩ :=
        Program.finish_query_of_reads (Deed.reads_findOne (Filter.byId id))
          tenant.principals store
      have replied :
          (Deed.findOne (Filter.byId id)).reply
              (store.documents tenant.principals) =
            (tenant.holdings store).principals.find? (hasId id) :=
        keyed.principals.find?_byId_of_perm (.refl _) id
      rw [replied] at searched
      dsimp only
      rw [Program.finish_bind_of_ok searched]
      cases found : (tenant.holdings store).principals.find? (hasId id) with
      | none =>
          rfl
      | some document =>
          have member : document ∈ (tenant.holdings store).members :=
            List.mem_append_left _ (List.mem_of_find?_eq_some found)
          have groupLists :
              ∀ group ∈ (tenant.holdings left).groups,
                group.Lists "policies" := by
            rw [tenant.holdings_of_same same]
            exact fun group among =>
              lists group (List.mem_append_right _ among)
          obtain ⟨last, lastSame, gathered⟩ :=
            Registry.finish_namedPolicyIds groupLists
              (Registry.fieldOf document "groups")
          rw [tenant.holdings_of_same same] at gathered
          simp only [Registry.entries_of_lists (lists document member),
            Program.finish_bind, Program.finish_ofExcept, gathered,
            Holdings.namedIds]
          cases Registry.namedGroups (tenant.holdings store).groups
              (Registry.fieldOf document "groups") with
          | error failure =>
              rfl
          | ok documents =>
              have loaded :=
                Registry.finish_policiesOf Program.undisturbed_rearranges
                  (lastSame.trans same).rearranged keyed.policies
                  (document.listed "policies" ++
                    documents.flatMap (Fields.listed · "policies"))
              rw [List.map_append, ← Holdings.filterMap_namedPolicy?] at loaded
              exact congrArg (Except.map Operation.Answer.policies) loaded

end AccessControl
