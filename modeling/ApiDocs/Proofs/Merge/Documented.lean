import ApiDocs.Proofs.Merge.Items
import ApiDocs.Proofs.Model.Documented

/-!
# Merging declarations of the tree

All declarations merge in one way: their data is merged, and each of their lists of members is merged by
addresses.
-/

namespace ApiDocs

theorem Package.address_merge (first second : Package) : (first.merge second).address = first.address :=
  rfl

theorem Class.mergeAll_eq (classes others : List Class) :
    Class.merge.mergeAll classes others = mergeItems Class.address Class.merge classes others := by
  induction others generalizing classes with
  | nil => rfl
  | cons first rest ih => exact ih _

theorem Class.merge_eq (declared other : Class) :
    declared.merge other =
      { declared with
        constructors := Function.mergeAll declared.constructors other.constructors
        functions := Function.mergeAll declared.functions other.functions
        properties := Property.mergeAll declared.properties other.properties
        classes := mergeItems Class.address Class.merge declared.classes other.classes
        expected := declared.expected.or other.expected
        actual := extendDistinct declared.actual other.actual
        extra := declared.extra.union other.extra
        visibility := declared.visibility.union other.visibility } := by
  rw [← mergeAll_eq]
  cases other
  rfl

namespace Documented

/-- Merge a declaration into one of its kind. -/
def merge : Documented → Documented → Documented
  | package declared, package other => package (declared.merge other)
  | classlike declared, classlike other => classlike (declared.merge other)
  | function declared, function other => function (declared.merge other)
  | property declared, property other => property (declared.merge other)
  | declared, _ => declared

abbrev mergeAll (declarations others : List Documented) : List Documented :=
  mergeItems address merge declarations others

@[simp] theorem kind_merge (first second : Documented) : (first.merge second).kind = first.kind := by
  cases first <;> cases second <;> rfl

@[simp] theorem address_merge (first second : Documented) :
    (first.merge second).address = first.address := by
  cases first <;> cases second <;> simp [merge, address, Class.merge_eq, Function.merge, Property.merge,
    Package.merge]

theorem map_package_mergeItems (packages others : List Package) :
    (mergeItems Package.address Package.merge packages others).map package =
      mergeAll (packages.map package) (others.map package) := by
  apply map_mergeItems_of_hom <;> intros <;> rfl

theorem map_classlike_mergeItems (classes others : List Class) :
    (mergeItems Class.address Class.merge classes others).map classlike =
      mergeAll (classes.map classlike) (others.map classlike) := by
  apply map_mergeItems_of_hom <;> intros <;> rfl

theorem map_function_mergeAll (functions others : List Function) :
    (Function.mergeAll functions others).map function =
      mergeAll (functions.map function) (others.map function) := by
  unfold Function.mergeAll
  apply map_mergeItems_of_hom <;> intros <;> rfl

theorem map_property_mergeAll (properties others : List Property) :
    (Property.mergeAll properties others).map property =
      mergeAll (properties.map property) (others.map property) := by
  unfold Property.mergeAll
  apply map_mergeItems_of_hom <;> intros <;> rfl

/-- Two declarations of one kind merge list by list. -/
theorem members_merge {first second : Documented} (same : first.kind = second.kind)
    (list : MemberKind) :
    (first.merge second).members list = mergeAll (first.members list) (second.members list) := by
  cases first <;> cases second <;> cases same <;> cases list <;>
    simp only [merge, members, Class.merge_eq, Package.merge, Property.merge, map_function_mergeAll,
      map_property_mergeAll, map_classlike_mergeItems, Class.mergeAll_eq] <;> rfl

theorem DistinctMembers.merge {first second : Documented} (same : first.kind = second.kind)
    (distinct : first.DistinctMembers) : (first.merge second).DistinctMembers := by
  intro list
  rw [memberAddresses, members_merge same]
  exact nodup_mergeItems address_merge (distinct list) _

/-- In a list of declarations of one kind the later ones have the kind of the first. -/
theorem kind_eq_first {kind : DeclarationKind} {first : Documented} {rest : List Documented}
    (alike : ∀ declared ∈ first :: rest, declared.kind = kind) :
    ∀ other ∈ rest, other.kind = first.kind := by
  intro other later
  rw [alike other (List.mem_cons_of_mem _ later), alike first List.mem_cons_self]

/-- Several declarations merged into one of their kind are merged list by list. -/
theorem members_foldl_merge {first : Documented} {rest : List Documented}
    (same : ∀ other ∈ rest, other.kind = first.kind) (list : MemberKind) :
    (rest.foldl merge first).members list =
      mergeAll (first.members list) (rest.flatMap fun other => other.members list) := by
  induction rest generalizing first with
  | nil => rfl
  | cons second rest ih =>
      rw [List.forall_mem_cons] at same
      have later : ∀ other ∈ rest, other.kind = (first.merge second).kind := fun other member => by
        rw [kind_merge, same.2 other member]
      rw [List.foldl_cons, ih later, members_merge same.1.symm, List.flatMap_cons]
      exact (mergeItems_append _ _ _).symm

/-- The members of declarations are merged in one go if those of the first one are distinct. -/
theorem members_foldl_merge_of_distinct {first : Documented} {rest : List Documented}
    (same : ∀ other ∈ rest, other.kind = first.kind) (distinct : first.DistinctMembers)
    (list : MemberKind) :
    (rest.foldl merge first).members list =
      mergeAll [] ((first :: rest).flatMap fun occurrence => occurrence.members list) := by
  rw [members_foldl_merge same, List.flatMap_cons, mergeAll, mergeAll, mergeItems_append,
    mergeItems_nil_of_nodup address_merge (distinct list)]

/-- What merging two declarations keeps, merging two trees keeps everywhere. -/
theorem Everywhere.merge {holds : Documented → Prop}
    (keeps : ∀ {first second : Documented}, first.kind = second.kind → first.address = second.address →
      holds first → holds second → holds (first.merge second))
    {first second : Documented} (kind : first.kind = second.kind) (address : first.address = second.address)
    (left : first.Everywhere holds) (right : second.Everywhere holds) :
    (first.merge second).Everywhere holds := by
  induction right generalizing first with
  | @intro second here below ih =>
      refine .intro (keeps kind address left.here here) fun list member found => ?_
      -- The kind goes along: only declarations of one kind merge list by list.
      have all : ∀ member ∈ mergeAll (first.members list) (second.members list),
          member.Everywhere holds ∧ member.kind = list.declarationKind := by
        refine forall_mem_mergeItems (fun item held => ?_) (fun other new => ?_)
          (fun item other new same known => ?_)
        · exact ⟨left.of_mem held, kind_of_mem_members held⟩
        · exact ⟨below list other new, kind_of_mem_members new⟩
        · have alike : item.kind = other.kind := known.2.trans (kind_of_mem_members new).symm
          exact ⟨ih list other new alike same known.1, by rw [kind_merge, known.2]⟩
      rw [members_merge kind] at found
      exact (all member found).1

end Documented

end ApiDocs
