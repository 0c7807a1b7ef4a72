/- # Proofs.ExportRecords -- a JSON export is read back

The record of a triple is an object of four strings with different keys, so that it is read back
(`readsBack_record`), and with it the array of the records of any number of triples. The document of a list
of triples determines these records, and the records determine the triples, up to doubles with the same
text (`jsonDocument_lossless`).
-/
import Mathlib.Data.List.Forall2
import Stencil.Export.Format
import Stencil.Proofs.JsonText
import Stencil.Proofs.LexicalForms

namespace Stencil
set_option autoImplicit false

/-- The same triple, up to the object's being another double with the same text. -/
structure Triple.Alike (t u : Triple) : Prop where
  subject : t.subject = u.subject
  predicate : t.predicate = u.predicate
  object : t.object.Alike u.object

theorem Triple.alike_of_record {t u : Triple} (same : t.record = u.record) : t.Alike u := by
  simp only [record, Json.obj.injEq, List.cons.injEq, Prod.mk.injEq, Json.str.injEq, true_and,
    and_true] at same
  obtain ⟨subject, predicate, object, kind⟩ := same
  exact ⟨congrArg Uri.mk subject, congrArg Uri.mk predicate, Value.alike_iff.mpr ⟨kind, object⟩⟩

/-- Four strings under different keys are read back. -/
theorem Triple.readsBack_record {bound levels level : Nat} (enough : 4 ≤ bound) (t : Triple) :
    t.record.ReadsBack bound (levels + 1) level := by
  refine Json.readsBack_obj enough (by simp) ?_
  intro field listed
  simp only [List.mem_cons, List.not_mem_nil, or_false] at listed
  rcases listed with rfl | rfl | rfl | rfl <;> exact Json.readsBack_str _

theorem Triple.four_le_length_record (t : Triple) (level : Nat) :
    4 ≤ (t.record.prettyChars level).length := by
  simp only [record, Json.prettyChars, Json.prettyFields, Json.newline, Json.stringChars,
    List.length_append, List.length_cons]
  omega

/-- The document of triples is read as their records. -/
theorem parse?_jsonDocument (ts : List Triple) :
    Json.parse? (jsonDocument ts) = some (.arr (ts.map Triple.record)) := by
  apply Json.parse?_pretty
  obtain ⟨count, longer⟩ := Json.length_prettyChars_arr 0 (ts.map Triple.record)
  -- the document is nested twice, which the limit of the reader allows
  obtain ⟨levels, deep⟩ : ∃ levels, Json.nestingLimit = levels + 1 + 1 := ⟨Json.nestingLimit - 2, rfl⟩
  rw [deep]
  refine Json.readsBack_arr (by omega) ?_
  intro record listed
  obtain ⟨t, -, rfl⟩ := List.mem_map.mp listed
  have four := t.four_le_length_record (0 + 1)
  have within := longer _ listed
  exact t.readsBack_record (by omega)

/-- **A JSON export is lossless and in order.** As JSON the document is the array with one record for each
triple, in their order, whose four strings are the subject, the predicate, and text and kind of the object. So
lists with the same document agree at every position in subject, predicate and object, up to doubles with the
same text. -/
theorem jsonDocument_lossless :
    (∀ ts : List Triple,
      Json.parse? (jsonDocument ts) = some (.arr (ts.map fun t =>
        .obj [("subject", .str t.subject.id), ("predicate", .str t.predicate.id),
          ("object", .str t.object.lexical), ("object_kind", .str t.object.kind)]))) ∧
      ∀ ts us : List Triple, jsonDocument ts = jsonDocument us → List.Forall₂ Triple.Alike ts us := by
  refine ⟨parse?_jsonDocument, ?_⟩
  intro ts us same
  have read := parse?_jsonDocument ts
  rw [same, parse?_jsonDocument us, Option.some.injEq, Json.arr.injEq, ← List.forall₂_eq_eq_eq,
    List.forall₂_map_left_iff, List.forall₂_map_right_iff] at read
  exact (read.imp fun _ _ records => Triple.alike_of_record records.symm).flip

end Stencil
