/- # Proofs.SubjectCounts -- counting subject by subject is counting

Some validators count the triples of a predicate for each subject of a pack, and another counts them all at
once. The two ways fit together because the subjects of a pack are listed without repetition and no triple
has a subject that is not listed: whatever is counted subject by subject is counted once
(`Pack.sum_countFor`). So a predicate that each subject has exactly once occurs as often as there are
subjects, the focus among them (`subject_counts_agree`).
-/
import Mathlib.Algebra.BigOperators.Group.Finset.Basic
import Mathlib.Algebra.Ring.Nat
import Stencil.Proofs.StoreRefinement
import Stencil.Proofs.ValidatorFormulas

namespace Stencil
set_option autoImplicit false

namespace Pack

theorem head?_subjects (p : Pack) : p.subjects.head? = some p.focus := by
  rw [subjects, firstSeen_eq_eraseDups, List.eraseDups_cons, List.head?_cons]

theorem nodup_subjects (p : Pack) : p.subjects.Nodup := nodup_firstSeen _

/-- A subject has as many triples of a predicate as it occurs among the subjects of these. -/
theorem countFor_eq_count (p : Pack) (s predicate : Uri) :
    p.countFor s predicate = ((p.withPredicate predicate).map Triple.subject).count s := by
  rw [countFor, List.count, List.countP_map, List.countP_eq_length_filter]
  rfl

theorem subject_mem_subjects {p : Pack} {predicate : Uri} {t : Triple}
    (mem : t ∈ p.withPredicate predicate) : t.subject ∈ p.subjects :=
  mem_subjects.mpr (.inr ⟨t, List.mem_of_mem_filter mem, rfl⟩)

/-- Over the subjects of a pack, the triples of a predicate are counted once each. -/
theorem sum_countFor (p : Pack) (predicate : Uri) :
    (p.subjects.map fun s => p.countFor s predicate).sum = (p.withPredicate predicate).length := by
  let owners : Multiset Uri := (p.withPredicate predicate).map Triple.subject
  have listed : ∀ s ∈ owners, s ∈ p.subjects.toFinset := by
    intro s owner
    obtain ⟨t, mem, rfl⟩ := List.mem_map.mp (Multiset.mem_coe.mp owner)
    exact List.mem_toFinset.mpr (subject_mem_subjects mem)
  calc (p.subjects.map fun s => p.countFor s predicate).sum
      = ∑ s ∈ p.subjects.toFinset, p.countFor s predicate :=
        (List.sum_toFinset _ p.nodup_subjects).symm
    _ = ∑ s ∈ p.subjects.toFinset, owners.count s :=
        Finset.sum_congr rfl fun s _ =>
          (p.countFor_eq_count s predicate).trans (Multiset.coe_count s _).symm
    _ = owners.card := Multiset.sum_count_eq_card listed
    _ = (p.withPredicate predicate).length := by rw [Multiset.coe_card, List.length_map]

/-- One triple for each subject makes as many triples as subjects. -/
theorem length_withPredicate_of_single {p : Pack} {predicate : Uri}
    (single : ∀ s ∈ p.subjects, p.countFor s predicate = 1) :
    (p.withPredicate predicate).length = p.subjects.length := by
  rw [← p.sum_countFor predicate, List.map_congr_left single, List.map_const',
    List.sum_replicate_nat, Nat.mul_one]

end Pack

namespace Validator

theorem countFor_eq_one_of_accepts {p : Pack} {predicate : Uri}
    (least : (atLeastOne predicate).Accepts p) (most : (atMostOne predicate).Accepts p) :
    ∀ s ∈ p.subjects, p.countFor s predicate = 1 := by
  simp only [Accepts, run, checkSubjects_eq_ok_iff, exists_eq_left, decide_eq_true_eq] at least most
  intro s present
  have positive := least s present
  have bounded := most s present
  omega

/-- **Counting by subject is counting.** The subjects of a pack are its focus, in front, and the subjects of
its triples, each once. Added up over them, what each has of a predicate is what there is of it in the pack.
So where a predicate must and may be there once for each subject, its number is that of the subjects. -/
theorem subject_counts_agree (p : Pack) (predicate : Uri) :
    p.subjects.head? = some p.focus ∧ p.subjects.Nodup ∧
      (∀ s, s ∈ p.subjects ↔ s = p.focus ∨ ∃ t ∈ p.triples, t.subject = s) ∧
      (p.subjects.map fun s => p.countFor s predicate).sum =
        p.triples.countP (fun t => t.predicate = predicate) ∧
      ((atLeastOne predicate).Accepts p → (atMostOne predicate).Accepts p →
        ∀ n, (exactlyN predicate n).Accepts p ↔ n = p.subjects.length) := by
  have counted : (p.withPredicate predicate).length =
      p.triples.countP fun t => t.predicate = predicate := List.countP_eq_length_filter.symm
  refine ⟨p.head?_subjects, p.nodup_subjects, fun s => Pack.mem_subjects, ?_, ?_⟩
  · rw [p.sum_countFor predicate, counted]
  · intro least most n
    have all := Pack.length_withPredicate_of_single (countFor_eq_one_of_accepts least most)
    rw [accepts_exactlyN_iff, ← all, counted]
    constructor
    · rintro (_ | _ | exact)
      exact exact.symm
    · intro same
      exact .exactlyN same.symm

/-- Everybody is named once; the focus comes behind others, and one subject has more than a name. -/
def roll : Pack where
  focus := ⟨"f"⟩
  triples :=
    [⟨⟨"g"⟩, ⟨"name"⟩, .uri ⟨"a"⟩⟩, ⟨⟨"g"⟩, ⟨"knows"⟩, .uri ⟨"f"⟩⟩, ⟨⟨"f"⟩, ⟨"name"⟩, .uri ⟨"a"⟩⟩,
      ⟨⟨"h"⟩, ⟨"name"⟩, .uri ⟨"b"⟩⟩]

theorem one_each_accepts_exactly_three :
    (atLeastOne ⟨"name"⟩).Accepts roll ∧ (atMostOne ⟨"name"⟩).Accepts roll ∧
      (roll.subjects.map fun s => roll.countFor s ⟨"name"⟩) = [1, 1, 1] ∧
      ∀ n, (exactlyN ⟨"name"⟩ n).Accepts roll ↔ n = 3 := by
  have least : (atLeastOne ⟨"name"⟩).Accepts roll := ⟨roll, rfl⟩
  have most : (atMostOne ⟨"name"⟩).Accepts roll := ⟨roll, rfl⟩
  obtain ⟨_, _, _, _, exact⟩ := subject_counts_agree roll ⟨"name"⟩
  exact ⟨least, most, by decide, exact least most⟩

end Validator

end Stencil
