import Mathlib.Data.List.Perm.Basic
import SchemaTree.Json
import SchemaTree.Proofs.Binary64

/-!
The data that JSON can hold, and members in the order of their keys: building an object arranges
members with distinct keys, and leaves members that are arranged already as they are.
-/

namespace SchemaTree.Json

/-- Members in the order of their keys, each key once. -/
def Arranged (members : List (String × Json)) : Prop :=
  members.Pairwise fun first second => first.1 < second.1

/-- The data that JSON can hold: integers of 64 bits with or without a sign, finite doubles, and
objects whose members are arranged. -/
inductive WellFormed : Json → Prop
  | null : WellFormed .null
  | bool (value : Bool) : WellFormed (.bool value)
  | int {value : Int} (least : -(twoTo 63 : Int) ≤ value) (greatest : value < twoTo 64) :
      WellFormed (.int value)
  | float {value : Binary64} (finite : value.isFinite = true) : WellFormed (.float value)
  | string (text : String) : WellFormed (.string text)
  | array {items : List Json} (wellFormed : ∀ item ∈ items, WellFormed item) :
      WellFormed (.array items)
  | object {members : List (String × Json)} (arranged : Arranged members)
      (wellFormed : ∀ member ∈ members, WellFormed member.2) : WellFormed (.object members)

theorem insertMember_of_lt {members : List (String × Json)} {key : String}
    (greatest : ∀ member ∈ members, member.1 < key) (value : Json) :
    insertMember members key value = members ++ [(key, value)] := by
  induction members with
  | nil => rfl
  | cons member rest inductionHypothesis =>
      obtain ⟨other, old⟩ := member
      have before : other < key := greatest (other, old) List.mem_cons_self
      rw [insertMember, if_neg (String.lt_asymm before), if_neg (String.ne_of_lt before).symm,
        inductionHypothesis fun member inRest => greatest member (List.mem_cons_of_mem _ inRest)]
      rfl

theorem foldl_insertMember_of_arranged {sorted members : List (String × Json)}
    (arranged : Arranged (sorted ++ members)) :
    members.foldl (fun sorted member => insertMember sorted member.1 member.2) sorted =
      sorted ++ members := by
  induction members generalizing sorted with
  | nil => exact (List.append_nil _).symm
  | cons member rest inductionHypothesis =>
      have greatest : ∀ other ∈ sorted, other.1 < member.1 := by
        intro other inSorted
        exact (List.pairwise_append.mp arranged).2.2 other inSorted member List.mem_cons_self
      rw [List.foldl_cons, insertMember_of_lt greatest, inductionHypothesis, List.append_assoc,
        List.singleton_append]
      rwa [List.append_assoc, List.singleton_append]

theorem ofMembers_of_arranged {members : List (String × Json)} (arranged : Arranged members) :
    ofMembers members = .object members :=
  congrArg Json.object (@foldl_insertMember_of_arranged [] members arranged)

theorem insertMember_perm {members : List (String × Json)} {key : String}
    (fresh : key ∉ members.map Prod.fst) (value : Json) :
    (insertMember members key value).Perm ((key, value) :: members) := by
  induction members with
  | nil => exact List.Perm.refl _
  | cons member rest inductionHypothesis =>
      obtain ⟨other, old⟩ := member
      rw [List.map_cons, List.mem_cons, not_or] at fresh
      unfold insertMember
      split
      · exact List.Perm.refl _
      · rw [if_neg fresh.1]
        exact ((inductionHypothesis fresh.2).cons _).trans (List.Perm.swap _ _ _)

theorem foldl_insertMember_perm {sorted members : List (String × Json)}
    (distinct : ((sorted ++ members).map Prod.fst).Nodup) :
    (members.foldl (fun sorted member => insertMember sorted member.1 member.2) sorted).Perm
      (sorted ++ members) := by
  induction members generalizing sorted with
  | nil => rw [List.append_nil]; exact List.Perm.refl _
  | cons member rest inductionHypothesis =>
      have moved : (sorted ++ member :: rest).Perm (member :: sorted ++ rest) :=
        List.perm_middle
      have distinctMoved := (moved.map Prod.fst).nodup_iff.mp distinct
      rw [List.cons_append, List.map_cons, List.nodup_cons, List.map_append, List.mem_append,
        not_or] at distinctMoved
      have inserted := insertMember_perm distinctMoved.1.1 member.2
      have distinctInserted :
          ((insertMember sorted member.1 member.2 ++ rest).map Prod.fst).Nodup :=
        (((inserted.append_right rest).trans moved.symm).map Prod.fst).nodup_iff.mpr distinct
      rw [List.foldl_cons]
      exact (inductionHypothesis distinctInserted).trans
        ((inserted.append_right rest).trans moved.symm)

/-- Members with distinct keys are arranged, and none is lost. -/
theorem ofMembers_perm {members : List (String × Json)}
    (distinct : (members.map Prod.fst).Nodup) :
    ∃ arranged, arranged.Perm members ∧ ofMembers members = .object arranged :=
  ⟨_, @foldl_insertMember_perm [] members distinct, rfl⟩

/-! ## Equality -/

theorem equalItems_self {items : List Json} (each : ∀ item ∈ items, item.equal item = true) :
    equalItems items items = true := by
  induction items with
  | nil => rfl
  | cons item rest inductionHypothesis =>
      rw [List.forall_mem_cons] at each
      rw [equalItems, each.1, inductionHypothesis each.2]
      rfl

theorem equalMembers_self {members : List (String × Json)}
    (each : ∀ member ∈ members, member.2.equal member.2 = true) :
    equalMembers members members = true := by
  induction members with
  | nil => rfl
  | cons member rest inductionHypothesis =>
      obtain ⟨key, value⟩ := member
      rw [List.forall_mem_cons] at each
      rw [equalMembers, each.1, inductionHypothesis each.2, decide_eq_true rfl]
      rfl

/-- Data that JSON can hold are equal to themselves, as no double among them is no number. -/
theorem WellFormed.equal_self {json : Json} (wellFormed : json.WellFormed) :
    json.equal json = true := by
  induction wellFormed with
  | null => rfl
  | bool value => exact decide_eq_true rfl
  | int least greatest => exact decide_eq_true rfl
  | float finite => exact (Binary64.equal_self_iff _).mpr (Binary64.isNaN_of_isFinite finite)
  | string text => exact decide_eq_true rfl
  | array _ inductionHypothesis => exact equalItems_self inductionHypothesis
  | object _ _ inductionHypothesis => exact equalMembers_self inductionHypothesis

end SchemaTree.Json
