/- # Proofs.Provenance -- where the triples of a body come from

Working out a body gives triples in many places: a property states one, and an expansion may stand as an
item, as the predicate or the object of a property, and in the arguments of a validator at any depth, each
time with triples of its own. `origin_items` says that these are all there are. A triple of a body has
the expansion at hand as its subject, or it came with an expansion that occurs in the body, worked out
inside of the expansion at hand (`Origin`).
-/
import Stencil.Proofs.Minting
import Stencil.Proofs.Occurrences

namespace Stencil
set_option autoImplicit false

namespace Expansion

open Eval

/-- Where a triple comes from that is given from a stack on: its subject is `me`, or it came with an
expansion all of which is listed. -/
inductive Origin (inner : Expansion → Eval Expanded) (me : Uri) (listed : List Expansion)
    (s : SelfStack) (triple : Triple) : Prop
  | own (subject : triple.subject = me)
  | nested {e : Expansion} {before after : SelfStack} {out : Expanded}
      (occurs : e.expansions ⊆ listed) (grown : s.Grows before)
      (worked : (inner e).run before = (.ok out, after)) (mem : triple ∈ out.triples)

section Body

variable {scope : Scope} {inner : Expansion → Eval Expanded} {me : Uri} {s t : SelfStack}

/-- An origin seen from an earlier stack, and with more listed. -/
theorem Origin.mono {listed more : List Expansion} {triple : Triple}
    (origin : Origin inner me listed t triple) (grown : s.Grows t) (fewer : listed ⊆ more) :
    Origin inner me more s triple := by
  cases origin with
  | own subject => exact .own subject
  | nested occurs later worked mem =>
      exact .nested (List.Subset.trans occurs fewer) (grown.trans later) worked mem

/-- Two parts of a body, one after the other. -/
theorem Origin.append {es fs : List Expansion} {first second : List Triple}
    (before : ∀ triple ∈ first, Origin inner me es s triple) (grown : s.Grows t)
    (after : ∀ triple ∈ second, Origin inner me fs t triple) :
    ∀ triple ∈ first ++ second, Origin inner me (es ++ fs) s triple := by
  refine List.forall_mem_append.mpr ⟨fun triple mem => ?_, fun triple mem => ?_⟩
  · exact (before triple mem).mono (.refl s) (List.subset_append_left es fs)
  · exact (after triple mem).mono grown (List.subset_append_right es fs)

theorem origin_value {e : Expr} {v : Value} {triples : List Triple}
    (done : (value scope inner e).run s = (.ok (v, triples), t)) :
    ∀ triple ∈ triples, Origin inner me e.expansions s triple := by
  cases e with
  | literal l =>
      cases done
      exact List.forall_mem_nil _
  | name n =>
      obtain ⟨r, _, _, done⟩ := run_bind_eq_ok done
      obtain ⟨found, _, _, done⟩ := run_bind_eq_ok done
      cases done
      exact List.forall_mem_nil _
  | param p => cases done
  | expansion e =>
      obtain ⟨out, _, worked, done⟩ := run_bind_eq_ok done
      cases done
      intro triple mem
      rw [Expr.expansions]
      exact .nested (List.Subset.refl _) (.refl s) worked mem

theorem origin_property (mints : ∀ e, OnlyMints (inner e)) {p : Property} {triples : List Triple}
    (done : (property scope inner me p).run s = (.ok triples, t)) :
    ∀ triple ∈ triples, Origin inner me p.expansions s triple := by
  obtain ⟨name, value, location⟩ := p
  obtain ⟨⟨predicate, before⟩, next, named, done⟩ := run_bind_eq_ok done
  cases predicate with
  | literal l => cases done
  | uri predicate =>
      obtain ⟨⟨object, after⟩, last, valued, done⟩ := run_bind_eq_ok done
      cases done
      have grown := OnlyMints.grows (moves_value fun x _ => mints x) named
      have parts : ∀ triple ∈ before ++ after,
          Origin inner me (name.expansions ++ value.expansions) s triple :=
        Origin.append (origin_value named) grown (origin_value valued)
      rw [Property.expansions]
      exact List.forall_mem_append.mpr ⟨parts, List.forall_mem_singleton.mpr (.own rfl)⟩

mutual

theorem origin_call (mints : ∀ e, OnlyMints (inner e)) {s t : SelfStack} :
    ∀ (x : Extension) {c : Call} {triples : List Triple},
      (call scope inner x).run s = (.ok (c, triples), t) →
        ∀ triple ∈ triples, Origin inner me x.expansions s triple
  | ⟨validator, arguments, location⟩, c, triples, done => by
      unfold call at done
      obtain ⟨⟨args, given⟩, _, worked, done⟩ := run_bind_eq_ok done
      cases done
      rw [Extension.expansions]
      exact origin_callArgs mints arguments worked

theorem origin_callArgs (mints : ∀ e, OnlyMints (inner e)) {s t : SelfStack} :
    ∀ (as : List ExtensionArg) {args : List CallArg} {triples : List Triple},
      (callArgs scope inner as).run s = (.ok (args, triples), t) →
        ∀ triple ∈ triples, Origin inner me (extensionArgExpansions as) s triple
  | [], args, triples, done => by
      unfold callArgs at done
      cases done
      exact List.forall_mem_nil _
  | a :: as, args, triples, done => by
      unfold callArgs at done
      obtain ⟨⟨arg, before⟩, next, first, done⟩ := run_bind_eq_ok done
      obtain ⟨⟨rest, after⟩, last, others, done⟩ := run_bind_eq_ok done
      cases done
      have grown := ((onlyMints_body mints).callArg a).grows first
      rw [extensionArgExpansions]
      exact Origin.append (origin_callArg mints a first) grown (origin_callArgs mints as others)

theorem origin_callArg (mints : ∀ e, OnlyMints (inner e)) {s t : SelfStack} :
    ∀ (a : ExtensionArg) {arg : CallArg} {triples : List Triple},
      (callArg scope inner a).run s = (.ok (arg, triples), t) →
        ∀ triple ∈ triples, Origin inner me a.expansions s triple
  | .expr e, arg, triples, done => by
      unfold callArg at done
      obtain ⟨⟨v, given⟩, _, valued, done⟩ := run_bind_eq_ok done
      cases done
      rw [ExtensionArg.expansions]
      exact origin_value valued
  | .extension x, arg, triples, done => by
      unfold callArg at done
      obtain ⟨⟨c, given⟩, _, called, done⟩ := run_bind_eq_ok done
      cases done
      rw [ExtensionArg.expansions]
      exact origin_call mints x called

end

theorem origin_item (mints : ∀ e, OnlyMints (inner e)) {i : Item} {yield : Yield}
    (done : (item scope inner me i).run s = (.ok yield, t)) :
    ∀ triple ∈ yield.triples, Origin inner me i.expansions s triple := by
  cases i with
  | property p =>
      obtain ⟨triples, _, stated, done⟩ := run_bind_eq_ok done
      cases done
      rw [Item.expansions]
      exact origin_property mints stated
  | expansion e =>
      obtain ⟨out, _, worked, done⟩ := run_bind_eq_ok done
      cases done
      intro triple mem
      rw [Item.expansions]
      exact .nested (List.Subset.refl _) (.refl s) worked mem
  | extension x =>
      obtain ⟨⟨c, triples⟩, _, called, done⟩ := run_bind_eq_ok done
      cases done
      rw [Item.expansions]
      exact origin_call mints x called

/-- Every triple of a body has an origin. -/
theorem origin_items (mints : ∀ e, OnlyMints (inner e)) {is : List Item} {yield : Yield}
    (done : (items scope inner me is).run s = (.ok yield, t)) :
    ∀ triple ∈ yield.triples, Origin inner me (itemExpansions is) s triple := by
  induction is generalizing s yield with
  | nil =>
      cases done
      exact List.forall_mem_nil _
  | cons i is ih =>
      obtain ⟨first, next, here, done⟩ := run_bind_eq_ok done
      obtain ⟨rest, last, behind, done⟩ := run_bind_eq_ok done
      cases done
      have grown := ((onlyMints_body mints).item me i).grows here
      rw [itemExpansions]
      exact Origin.append (origin_item mints here) grown (ih behind)

end Body

end Expansion

end Stencil
