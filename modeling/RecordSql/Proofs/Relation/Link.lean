import RecordSql.Proofs.Relation.Declaration
import RecordSql.Proofs.Relation.Load
import RecordSql.Relation.Joined

/-!
# Linked columns

Which columns a relation compares, whether it is joined to the query or loaded in a batch. In both cases the key of the
parents is compared with one column, of the pivot or of the target; only the name of its table differs.
-/

namespace RecordSql

namespace Relation

variable {r : Relation} {keys : List Value} {ps : List Param}

/-- The column that the key of the parents is compared with, where pivot and target have the given names. -/
def linkColumn (r : Relation) (pivotName targetName : String) : String :=
  match r.route with
  | .through => qualify pivotName (r.pivot.sourceKey.getD "")
  | _ => qualify targetName r.relatedKey

/-- The columns of pivot and target that lead from the one to the other, where these have the given names. -/
def crossing (r : Relation) (pivotName targetName : String) : String × String :=
  (qualify pivotName (r.pivot.targetKey.getD ""), qualify targetName r.relatedKey)

/-- The joins of a relation to one record, if it compares the linked columns. -/
def linkedJoins (r : Relation) : List Fragment :=
  let pivotName := r.joinedName ++ ".pivot"
  let parent := qualify r.source.name r.parentKey
  let link := r.linkColumn pivotName r.joinedName
  match r.route with
  | .through =>
    [leftJoin (r.pivot.table.getD "") pivotName parent link,
      leftJoin r.target.name r.joinedName (r.crossing pivotName r.joinedName).1 (r.crossing pivotName r.joinedName).2]
  | _ => [leftJoin r.target.name r.joinedName parent link]

/-- The join of a batch, if it compares the linked columns. -/
def linkedBatchJoin (r : Relation) : String :=
  match r.route with
  | .through => " INNER JOIN " ++ quoteName (r.pivot.table.getD "") ++ " AS " ++ quoteName pivotAlias ++ " ON "
      ++ (r.crossing pivotAlias r.target.name).2 ++ " = " ++ (r.crossing pivotAlias r.target.name).1
  | _ => ""

/-- The text of a batch for some keys, if it compares the linked columns. -/
def linkedBatch (r : Relation) (count : Nat) : String :=
  "SELECT " ++ quoteName r.target.name ++ ".*, " ++ r.linkColumn pivotAlias r.target.name ++ " AS "
    ++ quoteName relationKey ++ " FROM " ++ quoteName r.target.name ++ r.linkedBatchJoin ++ " WHERE "
    ++ r.linkColumn pivotAlias r.target.name ++ " IN (" ++ numbered 1 (marks count) ++ ");"

/-- Both ways of loading a relation compare the same columns. -/
structure Linked (r : Relation) : Prop where
  joined : r.reach = .one → r.joins = r.linkedJoins
  batch (keys : List Value) (ps : List Param) : keys ≠ [] → Param.ofValues keys = .ok ps →
    r.batchStatement keys = .ok ⟨r.linkedBatch keys.length, ps⟩

theorem joins_eq (hone : r.reach = .one) : r.joins = r.linkedJoins := by
  have hparent : r.parentKey = match r.route with
      | .reverse => r.modelKey
      | _ => r.foreignKey := by
    rw [parentKey, sourceHoldsForeignKey, hone]
    cases r.route <;> simp
  rw [joins, linkedJoins, linkColumn, crossing, hparent, relatedKey, hone]
  cases r.route with
  | through => rfl
  | direct => rfl
  | reverse => rfl

theorem batchKey_eq (r : Relation) : r.batchKey = r.linkColumn pivotAlias r.target.name := by
  rw [batchKey, linkColumn, relatedKey]
  cases r.route with
  | through => rfl
  | direct => cases r.reach <;> rfl
  | reverse => rfl

theorem clauseText_batchJoin (r : Relation) : clauseText " " 1 r.batchJoin = r.linkedBatchJoin := by
  have hb := r.balanced_batchJoin
  rw [batchJoin] at hb ⊢
  delta linkedBatchJoin crossing
  rw [relatedKey]
  cases hroute : r.route with
  | through =>
    rw [hroute] at hb
    have hfree := Fragment.balanced_plain.1 (hb _ rfl)
    rw [clauseText, Option.elim_some, Fragment.text_plain, hfree.numbered_eq]
    simp only [← String.append_assoc]
    rfl
  | direct => rfl
  | reverse => rfl

theorem batchStatement_linked (hne : keys ≠ []) (h : Param.ofValues keys = .ok ps) :
    r.batchStatement keys = .ok ⟨r.linkedBatch keys.length, ps⟩ := by
  have hs := batchStatement_eq (r := r) hne h
  rw [clauseText_batchJoin, batchColumns, batchKey_eq] at hs
  delta linkedBatch
  simpa only [String.append_assoc] using hs

theorem linked (r : Relation) : r.Linked := ⟨joins_eq, fun _ _ => batchStatement_linked⟩

end Relation

namespace Declaration

/-- What comes of a declaration: it is refused, exactly if something is wrong with it, in the name of its field; or it
is completed to a relation whose ways of loading compare the same columns. -/
structure Settles (d : Declaration) (outcome : Except Failure Relation) : Prop where
  refused : ∀ e, outcome = .error e → ∃ detail, e = .relationDefinition d.field detail
  refused_iff : (∃ e, outcome = .error e) ↔ d.Faulty
  completed : ∀ r, outcome = .ok r → r.CompletionOf d ∧ r.Linked

/-- The declaration with the route through the table that it puts between source and target, if there is one. -/
def routed (d : Declaration) : Declaration := if d.pivot.table.isSome then { d with route := .through } else d

theorem settles_complete (d : Declaration) : d.Settles d.complete where
  refused := refuses_complete d
  refused_iff := complete_eq_error_iff
  completed r h := ⟨completionOf_complete h, r.linked⟩

/-- **Declared relations.** Whatever the kind of relation, the route, the tables and the keys that are given: a
declaration with a fault is refused, and any other gives a complete relation, both of whose ways of loading compare the
key of the parents with the same column. A table between source and target implies the route through it. -/
theorem settles (d : Declaration) :
    d.Settles d.complete ∧ d.routed.Settles (Relation.declare d) ∧
      (d.pivot.table.isSome → d.routed.route = .through) := by
  refine ⟨settles_complete d, settles_complete d.routed, fun h => ?_⟩
  rw [routed, if_pos h]

/-- The tag of a post, by a table between the two, with both keys left out. -/
def tagDeclaration : Declaration where
  field := "tag"
  reach := .one
  route := .direct
  source := ⟨"posts", ["id"], ["id", "title"], ["id"], .copy, none⟩
  target := ⟨"tags", ["name"], ["name", "color"], ["name"], .copy, none⟩
  foreignKey := none
  modelKey := some ""
  pivot := ⟨some "post_tags", some "post", some "tag"⟩

def tagOfPost : Relation :=
  ⟨"tag", .one, .through, tagDeclaration.source, tagDeclaration.target, "id", "name", tagDeclaration.pivot⟩

/-- The same, but a tag has a key of two columns. -/
def ambiguousDeclaration : Declaration :=
  { tagDeclaration with target := ⟨"tags", ["name", "color"], ["name", "color"], ["name"], .copy, none⟩ }

theorem settles_tag : (tagOfPost.CompletionOf tagDeclaration.routed ∧ tagOfPost.Linked) ∧
    ∃ e, Relation.declare ambiguousDeclaration = .error e := by
  have htag : Relation.declare tagDeclaration = .ok tagOfPost := rfl
  have hfault : ambiguousDeclaration.routed.Faulty := .modelDefault rfl (by decide)
  exact ⟨(settles tagDeclaration).2.1.completed tagOfPost htag, (settles ambiguousDeclaration).2.1.refused_iff.2 hfault⟩

end Declaration

end RecordSql
