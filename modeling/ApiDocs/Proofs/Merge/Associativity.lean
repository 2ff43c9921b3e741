import ApiDocs.Proofs.Merge.Documented
import ApiDocs.Proofs.SortedMap

/-!
# Merging is associative

Three declarations with distinct members may be merged from the left or from the right, provided that
functions with one address have equally many parameters.  With fewer parameters in the middle, what the
third function says about the further ones would be lost on one side only.
-/

namespace ApiDocs

namespace Parameter

theorem length_mergeLists (parameters others : List Parameter) :
    (mergeLists parameters others).length = parameters.length := by
  induction parameters generalizing others with
  | nil => rfl
  | cons first rest ih =>
      cases others with
      | nil => rfl
      | cons other others => rw [mergeLists, List.length_cons, ih, List.length_cons]

/-- Lists of equally many parameters may be regrouped. -/
theorem mergeLists_assoc {first second third : List Parameter} (length : first.length = second.length) :
    mergeLists (mergeLists first second) third = mergeLists first (mergeLists second third) := by
  induction first generalizing second third with
  | nil => rfl
  | cons one rest ih =>
      cases second with
      | nil => cases length
      | cons two others =>
          cases third with
          | nil => rfl
          | cons three further =>
              simp only [mergeLists, extendDistinct_assoc, ih (Nat.succ.inj length)]

end Parameter

namespace Documented

/-- A function has as many parameters as its address says. -/
def FollowsArity (arity : Address → Nat) : Documented → Prop
  | function declared => declared.parameters.length = arity declared.address
  | _ => True

/-- Distinct members, and parameters as an arity says: what regrouping asks of a declaration. -/
structure Regular (arity : Address → Nat) (declared : Documented) : Prop where
  distinct : declared.DistinctMembers
  follows : declared.FollowsArity arity

variable {arity : Address → Nat} {first second third : Documented}

theorem Regular.merge (same : first.kind = second.kind) (regular : first.Regular arity) :
    (first.merge second).Regular arity := by
  refine ⟨regular.distinct.merge same, ?_⟩
  have follows := regular.follows
  cases first <;> cases second <;> cases same
  case function.function => exact (Parameter.length_mergeLists _ _).trans follows
  all_goals trivial

/-- The data of three declarations of one kind may be merged from either side. -/
theorem withoutMembers_merge_assoc (firstKind : first.kind = second.kind)
    (secondKind : second.kind = third.kind) (address : first.address = second.address)
    (firstFollows : first.FollowsArity arity) (secondFollows : second.FollowsArity arity) :
    ((first.merge second).merge third).withoutMembers =
      (first.merge (second.merge third)).withoutMembers := by
  cases first <;> cases second <;> simp only [kind, reduceCtorEq] at firstKind
  all_goals cases third <;> simp only [kind, reduceCtorEq] at secondKind
  case package.package.package => rfl
  case classlike.classlike.classlike =>
    simp only [merge, withoutMembers, Class.merge_eq, Option.or_assoc, extendDistinct_assoc,
      SortedMap.union_assoc]
  case function.function.function first second third =>
    have length : first.parameters.length = second.parameters.length :=
      firstFollows.trans ((congrArg arity address).trans secondFollows.symm)
    simp only [merge, withoutMembers, Function.merge, Option.or_assoc, extendDistinct_assoc,
      SortedMap.union_assoc, Parameter.mergeLists_assoc length]
  case property.property.property =>
    simp only [merge, withoutMembers, Property.merge, Option.or_assoc, extendDistinct_assoc,
      SortedMap.union_assoc]

/-- Regular trees of one kind and address may be merged from either side. -/
theorem merge_assoc (firstKind : first.kind = second.kind) (secondKind : second.kind = third.kind)
    (address : first.address = second.address) (firstRegular : first.Everywhere (Regular arity))
    (secondRegular : second.Everywhere (Regular arity)) (thirdRegular : third.Everywhere (Regular arity)) :
    (first.merge second).merge third = first.merge (second.merge third) := by
  induction firstRegular generalizing second third with
  | @intro first here below ih =>
      refine eq_of_members_eq ?_ fun list => ?_
      · exact withoutMembers_merge_assoc firstKind secondKind address here.follows
          secondRegular.here.follows
      · have merged : (first.merge second).kind = third.kind := by rw [kind_merge, firstKind, secondKind]
        have inner : first.kind = (second.merge third).kind := by rw [kind_merge, firstKind]
        rw [members_merge merged, members_merge firstKind, members_merge inner, members_merge secondKind]
        refine mergeItems_assoc address_merge (here.distinct list) (secondRegular.here.distinct list)
          (thirdRegular.here.distinct list) ?_
        intro one held two inSecond three inThird same alsoSame
        refine ih list one held ?_ ?_ same (secondRegular.of_mem inSecond) (thirdRegular.of_mem inThird)
        · rw [kind_of_mem_members held, kind_of_mem_members inSecond]
        · rw [kind_of_mem_members inSecond, kind_of_mem_members inThird]

end Documented

end ApiDocs
