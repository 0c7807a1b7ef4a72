/- # Proofs.Freshness -- anonymous identities are never given out twice

An anonymous identity is the one around it, a separator and a number; inside every expansion the
numbers start again at zero. Two things keep identities apart. The numbers on the way from the top
level down to an expansion, its path, are those of no other expansion of the run (`Numbered`): a
stack never gives out a number again, and what is inside an expansion is below its number. And a path
can be read off the text (`numbered_below_injective`), as long as the separator does not begin with a
digit: then a number ends where the next separator begins.

`Numbered` is closed under sequencing (`Numbered.trans`) and under entering an expansion
(`Numbered.enter`). It holds of every computation of the evaluator (`fresh_evaluateLoggedAt`, by
induction on the depth that is left), of each step from one moment to the next, and so of everything
that a host does (`anonymous_identities_nodup`), forms that fail included.
-/
import Mathlib.Data.List.Nodup
import Stencil.Proofs.Atomicity
import Stencil.Proofs.LexicalForms
import Stencil.Proofs.Naming
import Stencil.Proofs.WriteOnce

namespace Stencil
set_option autoImplicit false

/-! ## Paths and their texts -/

/-- The delimiter and the stem, which are put before a number, do not begin with a digit. -/
def Config.Separates (config : Config) : Prop :=
  ∃ c ∈ (config.anonymousDelimiter ++ config.anonymousStem).toList.head?, c.isDigit = false

/-- The anonymous identity with a number inside an expansion. -/
def Uri.child (config : Config) (me : Uri) (number : Nat) : Uri :=
  me.extend config.anonymousDelimiter s!"{config.anonymousStem}{number}"

/-- The anonymous identity at a path of numbers below another one. -/
def Uri.below (config : Config) (me : Uri) : List Nat → Uri
  | [] => me
  | number :: path => (me.child config number).below config path

/-- What is put behind an identity to get the one at a path below it. -/
def pathText (config : Config) : List Nat → List Char
  | [] => []
  | number :: path =>
    (config.anonymousDelimiter ++ config.anonymousStem).toList ++
      (Nat.toDigits 10 number ++ pathText config path)

theorem Uri.toList_extend_number (u : Uri) (delimiter stem : String) (number : Nat) :
    (u.extend delimiter s!"{stem}{number}").id.toList =
      u.id.toList ++ (delimiter ++ stem).toList ++ Nat.toDigits 10 number := by
  change (u.id ++ delimiter ++ (stem ++ toString number)).toList = _
  simp

theorem Uri.toList_below (config : Config) (me : Uri) (path : List Nat) :
    (me.below config path).id.toList = me.id.toList ++ pathText config path := by
  induction path generalizing me with
  | nil => simp [Uri.below, pathText]
  | cons number path ih =>
      rw [Uri.below, ih, Uri.child, Uri.toList_extend_number, pathText, List.append_assoc,
        List.append_assoc]

section Decoding

variable {config : Config}

theorem head?_pathText (separates : config.Separates) (path : List Nat) :
    ∀ c ∈ (pathText config path).head?, c.isDigit = false := by
  cases path with
  | nil => simp [pathText]
  | cons number path =>
      obtain ⟨first, head, other⟩ := separates
      intro c here
      rw [pathText, List.head?_append, Option.mem_def.mp head] at here
      cases here
      exact other

/-- The number at the head of a text is read up to the next separator. -/
theorem takeWhile_number (separates : config.Separates) (number : Nat) (path : List Nat) :
    (Nat.toDigits 10 number ++ pathText config path).takeWhile Char.isDigit =
      Nat.toDigits 10 number := by
  have digits : ∀ c ∈ Nat.toDigits 10 number, c.isDigit = true := fun c held =>
    Nat.isDigit_of_mem_toDigits (by decide) (by decide) held
  have apart := head?_pathText separates path
  rw [List.takeWhile_append_of_pos digits]
  cases rest : pathText config path with
  | nil => simp
  | cons c cs =>
      rw [rest] at apart
      simp [apart c rfl]

theorem number_eq (separates : config.Separates) {k l : Nat} {ks ls : List Nat}
    (same : Nat.toDigits 10 k ++ pathText config ks = Nat.toDigits 10 l ++ pathText config ls) :
    k = l ∧ pathText config ks = pathText config ls := by
  have first := congrArg (List.takeWhile Char.isDigit) same
  rw [takeWhile_number separates, takeWhile_number separates] at first
  cases toDigits_injective first
  exact ⟨rfl, List.append_cancel_left same⟩

theorem pathText_cons_ne_nil (separates : config.Separates) (number : Nat) (path : List Nat) :
    pathText config (number :: path) ≠ [] := by
  obtain ⟨c, head, _⟩ := separates
  intro empty
  rw [pathText, List.append_eq_nil_iff] at empty
  rw [empty.1] at head
  cases head

/-- A path can be read off its text in one way only. -/
theorem pathText_injective (separates : config.Separates) :
    Function.Injective (pathText config) := by
  intro ks
  induction ks with
  | nil =>
      intro ls same
      cases ls with
      | nil => rfl
      | cons l ls => exact absurd same.symm (pathText_cons_ne_nil separates l ls)
  | cons k ks ih =>
      intro ls same
      cases ls with
      | nil => exact absurd same (pathText_cons_ne_nil separates k ks)
      | cons l ls =>
          obtain ⟨rfl, rest⟩ := number_eq separates (List.append_cancel_left same)
          rw [ih rest]

end Decoding

/-! ## The numbers of a stack -/

namespace SelfStack

/-- The number of the next anonymous identity. -/
def count (s : SelfStack) : Nat :=
  match s.frames with
  | frame :: _ => frame.minted
  | [] => s.minted

/-- The anonymous identity that a stack gives out under a number. -/
def numbered (config : Config) (ns : Option Uri) (s : SelfStack) (number : Nat) : Uri :=
  match s.frames with
  | frame :: _ => frame.identity.child config number
  | [] => (ns.getD .empty).extend "" s!"{config.anonymousStem}{number}"

variable (config : Config) (ns : Option Uri)

theorem fst_mint (s : SelfStack) : (s.mint config ns).1 = s.numbered config ns s.count := by
  obtain ⟨frames, minted⟩ := s
  cases frames with
  | nil => rfl
  | cons frame frames => rfl

theorem count_mint (s : SelfStack) : (s.mint config ns).2.count = s.count + 1 := by
  obtain ⟨frames, minted⟩ := s
  cases frames with
  | nil => rfl
  | cons frame frames => rfl

theorem Grows.count_le {s t : SelfStack} (grown : s.Grows t) : s.count ≤ t.count := by
  cases grown with
  | outside le => exact le
  | inside le => exact le

theorem Grows.numbered_eq {s t : SelfStack} (grown : s.Grows t) :
    t.numbered config ns = s.numbered config ns := by
  cases grown with
  | outside le => rfl
  | inside le => rfl

/-- Different paths below the numbers of a stack are different identities. -/
theorem numbered_below_injective (separates : config.Separates) (s : SelfStack) :
    Function.Injective fun path : Nat × List Nat =>
      (s.numbered config ns path.1).below config path.2 := by
  obtain ⟨lead, text⟩ : ∃ lead : List Char, ∀ number,
      (s.numbered config ns number).id.toList = lead ++ Nat.toDigits 10 number := by
    obtain ⟨frames, minted⟩ := s
    cases frames with
    | nil => exact ⟨_, fun number => Uri.toList_extend_number _ "" _ number⟩
    | cons frame frames => exact ⟨_, fun number => Uri.toList_extend_number _ _ _ number⟩
  rintro ⟨k, ks⟩ ⟨l, ls⟩ same
  have texts := congrArg (fun u : Uri => u.id.toList) same
  simp only [Uri.toList_below, text, List.append_assoc] at texts
  obtain ⟨rfl, rest⟩ := number_eq separates (List.append_cancel_left texts)
  rw [pathText_injective separates rest]

end SelfStack

/-! ## Different paths -/

/-- Between one stack and another, the expansions that are named lie at paths that differ and that
begin with numbers given out in between. -/
structure Numbered (config : Config) (ns : Option Uri) (s : SelfStack) (names : List Naming)
    (t : SelfStack) : Prop where
  grows : s.Grows t
  paths : ∃ paths : List (Nat × List Nat), paths.Nodup ∧
    (∀ path ∈ paths, s.count ≤ path.1 ∧ path.1 < t.count) ∧
    names.map Naming.identity =
      paths.map fun path => (s.numbered config ns path.1).below config path.2

namespace Numbered

variable {config : Config} {ns : Option Uri} {s t u : SelfStack} {names more : List Naming}

theorem ofGrows (grown : s.Grows t) : Numbered config ns s [] t :=
  ⟨grown, [], List.nodup_nil, by simp, rfl⟩

/-- Numbers that are given out later are greater. -/
theorem trans (first : Numbered config ns s names t) (second : Numbered config ns t more u) :
    Numbered config ns s (names ++ more) u := by
  obtain ⟨grows, before, apart, range, at_before⟩ := first
  obtain ⟨grows', after, apart', range', at_after⟩ := second
  refine ⟨grows.trans grows', before ++ after, ?_, ?_, ?_⟩
  · -- a path of both would begin with a number below and above the count in the middle
    refine List.nodup_append.mpr ⟨apart, apart', fun p early q late same => ?_⟩
    have below := (range p early).2
    have above := (range' q late).1
    rw [same] at below
    omega
  · intro path held
    have le := grows.count_le
    have le' := grows'.count_le
    rcases List.mem_append.mp held with early | late
    · have bounds := range path early
      omega
    · have bounds := range' path late
      omega
  · rw [List.map_append, List.map_append, at_before, at_after, grows.numbered_eq]

theorem mono (numbered : Numbered config ns s names t) (grown : t.Grows u) :
    Numbered config ns s names u := by
  have more := numbered.trans (ofGrows grown)
  rw [List.append_nil] at more
  exact more

/-- An expansion is at the next number of the stack, and what is named inside it is below. -/
theorem enter {e : Expansion} (me : Uri) (minted : (s.mint config ns).1 = me)
    (inside : Numbered config ns ((s.mint config ns).2.push me) names t) :
    Numbered config ns s (⟨e, me⟩ :: names) (s.mint config ns).2 := by
  obtain ⟨_, paths, apart, _, at_paths⟩ := inside
  subst minted
  -- the paths inside begin again at zero, so they are told apart from others by the number in front
  refine ⟨.mint config ns s,
    (s.count, []) :: paths.map fun path => (s.count, path.1 :: path.2), ?_, ?_, ?_⟩
  · refine List.nodup_cons.mpr ⟨by simp, apart.map ?_⟩
    rintro ⟨k, ks⟩ ⟨l, ls⟩ same
    simpa using same
  · intro path held
    have here : path.1 = s.count := by
      rcases List.mem_cons.mp held with rfl | deeper
      · rfl
      · obtain ⟨_, _, rfl⟩ := List.mem_map.mp deeper
        rfl
    rw [here, SelfStack.count_mint]
    omega
  · rw [List.map_cons, List.map_cons, List.map_map, at_paths, SelfStack.fst_mint]
    rfl

theorem nodup (numbered : Numbered config ns s names t) (separates : config.Separates) :
    (names.map Naming.identity).Nodup := by
  obtain ⟨_, paths, apart, _, at_paths⟩ := numbered
  rw [at_paths]
  exact apart.map (s.numbered_below_injective config ns separates)

end Numbered

/-! ## Computations -/

namespace Logged

variable {α β : Type} {config : Config} {ns : Option Uri}

/-- If it names anonymous expansions only, the computation names them at different paths. -/
def Fresh (config : Config) (ns : Option Uri) (x : Logged α) : Prop :=
  ∀ s : SelfStack, (∀ n ∈ x.names s, n.expansion.name = none) →
    Numbered config ns s (x.names s) (x.compute.run s).2

namespace Fresh

theorem silent {x : Eval α} (mints : x.OnlyMints) : Fresh config ns (silent x) :=
  fun s _ => .ofGrows (mints s)

theorem pure (a : α) : Fresh config ns (pure a) := silent (.pure a)

theorem bind {x : Logged α} {rest : α → Logged β} (first : Fresh config ns x)
    (second : ∀ a, Fresh config ns (rest a)) : Fresh config ns (x >>= rest) := by
  intro s unnamed
  rw [names_bind] at unnamed ⊢
  rw [compute_bind, Eval.run_bind]
  rw [List.forall_mem_append] at unnamed
  have before := first s unnamed.1
  cases ran : x.compute.run s with
  | mk answer t =>
      rw [ran] at before unnamed
      cases answer with
      | ok a => exact before.trans (second a t unnamed.2)
      | error e =>
          rw [List.append_nil]
          exact before

end Fresh

end Logged

namespace Expansion

open Logged

/-- Bodies name anonymous expansions at different paths if the expansions inside do. -/
theorem fresh_body {config : Config} {ns : Option Uri} {inner : Expansion → Logged Expanded}
    (inside : ∀ e, Fresh config ns (inner e)) : LoggedBody (Fresh config ns) inner where
  silent := .silent
  bind := .bind
  inside := inside

/-- An anonymous expansion that has been prepared has the next identity of the stack. -/
theorem prepare_anonymous {scope : Scope} {e : Expansion} (anonymous : e.name = none)
    {s t : SelfStack} {me : Uri} {body : List Item}
    (prepared : (prepare scope e).run s = (.ok (me, body), t)) :
    (s.mint scope.config scope.defaultNamespace).1 = me ∧
      (s.mint scope.config scope.defaultNamespace).2 = t := by
  obtain ⟨_, named⟩ := prepare_eq_ok prepared
  unfold identityOf at named
  rw [anonymous] at named
  cases named
  exact ⟨rfl, rfl⟩

/-- The computation is over inside an expansion: it leaves the stack as it was, and what it names is
numbered as if the expansion had been entered. -/
def Enclosed (config : Config) (ns : Option Uri) (me : Uri) (x : Logged Expanded) : Prop :=
  ∀ s : SelfStack, (∀ n ∈ x.names s, n.expansion.name = none) →
    (x.compute.run s).2 = s ∧ ∃ t, Numbered config ns (s.push me) (x.names s) t

theorem enclosed_throw {config : Config} {ns : Option Uri} (me : Uri) (cause : Error) :
    Enclosed config ns me (.silent (throw cause)) :=
  fun s _ => ⟨rfl, s.push me, .ofGrows (.refl _)⟩

theorem enclosed_within {config : Config} {ns : Option Uri} {x : Logged Expanded}
    (fresh : Fresh config ns x) (me : Uri) : Enclosed config ns me (.within me x) := by
  intro s unnamed
  have numbered := fresh (s.push me) unnamed
  exact ⟨numbered.grows.pop_of_push, _, numbered⟩

/-- Naming an expansion and going on inside it. -/
theorem fresh_named {scope : Scope} {e : Expansion} {rest : Uri × List Item → Logged Expanded}
    (inside : ∀ me body, Enclosed scope.config scope.defaultNamespace me (rest (me, body))) :
    Fresh scope.config scope.defaultNamespace (do
      let found ← .silent (prepare scope e)
      .tell ⟨e, found.1⟩
      rest found) := by
  intro s unnamed
  have grown := onlyMints_prepare scope e s
  rw [names_silent_bind] at unnamed ⊢
  rw [compute_bind, silent, Eval.run_bind]
  cases prepared : (prepare scope e).run s with
  | mk answer t =>
      rw [prepared] at grown unnamed
      cases answer with
      | error cause => exact .ofGrows grown
      | ok found =>
          obtain ⟨me, body⟩ := found
          simp only [names_tell_bind, compute_tell_bind, List.forall_mem_cons] at unnamed ⊢
          -- only now is the expansion known to be anonymous: it is in the log
          obtain ⟨minted, rfl⟩ := prepare_anonymous unnamed.1 prepared
          obtain ⟨kept, last, below⟩ := inside me body _ unnamed.2
          rw [kept]
          exact .enter me minted below

theorem fresh_evaluateLoggedAt (scope : Scope) (depth : Nat) (e : Expansion) :
    Fresh scope.config scope.defaultNamespace (evaluateLoggedAt scope depth e) := by
  induction depth generalizing e with
  | zero => exact fresh_named fun me _ => enclosed_throw me _
  | succ depth ih =>
      refine fresh_named fun me body => enclosed_within ?_ me
      refine ((fresh_body ih).items me body).bind fun out => ?_
      exact (Fresh.silent (.ofExcept _)).bind fun triples => .pure _

theorem fresh_evaluateLogged (scope : Scope) (e : Expansion) :
    Fresh scope.config scope.defaultNamespace (evaluateLogged scope e) := by
  have reads : Eval.OnlyMints (get : Eval SelfStack) := SelfStack.Grows.refl
  exact (Fresh.silent reads).bind fun s => fresh_evaluateLoggedAt scope _ e

end Expansion

/-! ## Forms -/

namespace Form

open Logged

theorem fresh_valueLogged (scope : Scope) (e : Expr) :
    Fresh scope.config scope.defaultNamespace (valueLogged scope e) :=
  (Expansion.fresh_body (Expansion.fresh_evaluateLogged scope)).value e

theorem fresh_assignLogged (scope : Scope) (name : Name) (e : Expr) :
    Fresh scope.config scope.defaultNamespace (assignLogged scope name e) := by
  unfold assignLogged
  refine (Fresh.silent (.ofExcept _)).bind fun key => ?_
  refine (fresh_valueLogged scope _).bind fun found => ?_
  exact (Fresh.silent (.ofExcept _)).bind fun after => .pure _

theorem fresh_stateLogged (scope : Scope) (subject predicate object : Expr) :
    Fresh scope.config scope.defaultNamespace (stateLogged scope subject predicate object) := by
  unfold stateLogged
  refine (fresh_valueLogged scope subject).bind fun found => ?_
  refine (Fresh.silent (.ofExcept _)).bind fun s => ?_
  refine (fresh_valueLogged scope predicate).bind fun found => ?_
  refine (Fresh.silent (.ofExcept _)).bind fun p => ?_
  exact (fresh_valueLogged scope object).bind fun found => .pure _

theorem fresh_stepLogged (scope : Scope) (form : Form) :
    Fresh scope.config scope.defaultNamespace (form.stepLogged scope) := by
  cases form with
  | assignment name e location => exact fresh_assignLogged scope name e
  | expansion e => exact (Expansion.fresh_evaluateLogged scope e).bind fun out => .pure _
  | triple subject predicate object location =>
      exact fresh_stateLogged scope subject predicate object
  | _ => exact .silent (onlyMints_step scope _)

end Form

/-! ## Runs -/

theorem Scope.Change.config {scope after : Scope} (change : scope.Change after) :
    after.config = scope.config := by
  cases change with
  | symbol bound => rw [(bindSymbol_eq_ok bound).2]
  | namespacePrefix bound =>
      rcases bindPrefix_eq_ok bound with rfl | ⟨_, rfl⟩
      · rfl
      · rfl
  | defaultPrefix chosen =>
      obtain ⟨ns, rfl⟩ := setDefaultPrefix_eq_ok chosen
      rfl
  | _ => rfl

theorem Scope.Changes.config {scope after : Scope} (changes : scope.Changes after) :
    after.config = scope.config := by
  induction changes with
  | refl => rfl
  | tail _ change ih => exact change.config.trans ih

theorem Environment.respected_grows :
    Respected fun env after => env.selves.Grows after.selves where
  refl _ := .refl _
  trans first second := first.trans second
  perform env form := env.perform_grows form
  record _ _ _ _ := .refl _
  through _ _ _ inside := inside

theorem Environment.perform_numbered (env : Environment) (form : Form)
    (unnamed : ∀ n ∈ (form.stepLogged env.scope).names env.selves, n.expansion.name = none) :
    Numbered env.scope.config env.scope.defaultNamespace env.selves
      ((form.stepLogged env.scope).names env.selves) (env.perform form).2.selves := by
  have numbered := form.fresh_stepLogged env.scope env.selves unnamed
  rw [form.compute_stepLogged] at numbered
  unfold perform
  split
  · rename_i e selves failed
    rw [failed] at numbered
    exact numbered
  · rename_i step selves done
    rw [done] at numbered
    exact numbered

namespace Moment

open Environment

theorem Next.numbered {m n : Moment} (next : m.Next n)
    (unnamed : ∀ x ∈ m.namings, x.expansion.name = none) :
    Numbered m.env.scope.config m.env.scope.defaultNamespace m.env.selves m.namings
      n.env.selves := by
  cases next with
  | @performed env _ _ _ _ form _ _ done =>
      have numbered := env.perform_numbered form unnamed
      rw [done] at numbered
      exact numbered
  | @failed env _ _ _ form _ _ _ failed =>
      have numbered := env.perform_numbered form unnamed
      rw [failed] at numbered
      exact numbered
  | opened opens =>
      obtain ⟨⟨location, rfl⟩, _⟩ := opens?_eq_some opens
      exact .ofGrows (.refl _)
  | _ => exact .ofGrows (.refl _)

theorem Steps.config {m n : Moment} (steps : m.Steps n) :
    n.env.scope.config = m.env.scope.config :=
  (steps.respects respected_changes (fun _ _ => .refl) fun _ => .refl).config

theorem Steps.grows {m n : Moment} (steps : m.Steps n) : m.env.selves.Grows n.env.selves :=
  steps.respects respected_grows (fun _ _ => .refl _) fun _ => .refl _

/-- A run that is at its end names nothing more. -/
theorem namings_of_ended {m : Moment} (ended : m.next? = none) : m.namings = [] := by
  obtain ⟨env, ⟨index, last, forms⟩, around⟩ := m
  cases forms with
  | nil => rfl
  | cons form forms =>
      rw [next?] at ended
      split at ended <;> cases ended

/-- What is named in the first moments of a run is numbered, up to where the run ends. -/
theorem numbered_trace {ns : Option Uri} {count : Nat} {m last : Moment} (steps : m.Steps last)
    (ended : last.next? = none)
    (settled : ∀ n ∈ trace count m, n.env.scope.defaultNamespace = ns)
    (unnamed : ∀ n ∈ trace count m, ∀ x ∈ n.namings, x.expansion.name = none) :
    Numbered m.env.scope.config ns m.env.selves ((trace count m).flatMap namings)
      last.env.selves := by
  induction count generalizing m with
  | zero => exact .ofGrows steps.grows
  | succ count ih =>
      rw [trace, List.forall_mem_cons] at settled unnamed
      rw [trace, List.flatMap_cons]
      rcases steps.cases_head with rfl | ⟨n, next, rest⟩
      · rw [ended, namings_of_ended ended]
        exact .ofGrows (.refl _)
      · rw [next] at settled unnamed ⊢
        have here := (next_of_next? next).numbered unnamed.1
        have later := ih rest settled.2 unnamed.2
        rw [settled.1] at here
        rw [Steps.config (.single next)] at later
        exact here.trans later

end Moment

namespace Environment

theorem Operation.apply_grows (env : Environment) (op : Operation) :
    env.selves.Grows (op.apply env).selves := by
  rcases op.apply_cases env with ⟨forms, same⟩ | ⟨form, same⟩ | ⟨_, _, _, _, _, same⟩
  · rw [same]
    exact respected_grows.interpret env forms
  · rw [same]
    exact respected_grows.evaluate env form
  · rw [same]
    exact .refl _

/-- An operation is a run from its first form to the environment after it, as far as the stack goes.
-/
theorem Operation.exists_steps (env : Environment) (op : Operation) :
    ∃ last, (Moment.start env op.forms).Steps last ∧ last.next? = none ∧
      last.env.selves.Grows (op.apply env).selves := by
  cases op with
  | interpret forms =>
      obtain ⟨index, run⟩ := Moment.interpret_steps env forms
      exact ⟨_, run, rfl, .refl _⟩
  | evaluate form =>
      have run := Moment.evaluate_steps env form 0 none [] []
      cases evaluated : env.evaluate form with
      | mk answer after =>
          have same : (evaluate form).apply env = after := congrArg Prod.snd evaluated
          rw [evaluated] at run
          rw [same]
          cases answer with
          | ok v => exact ⟨_, run, rfl, .refl _⟩
          | error e => exact ⟨_, run, rfl, .refl _⟩
  | _ => exact ⟨_, .refl, rfl, apply_grows env _⟩

theorem numbered_moments {ns : Option Uri} {count : Nat} {env : Environment} {ops : List Operation}
    (settled : ∀ m ∈ moments count env ops, m.env.scope.defaultNamespace = ns)
    (unnamed : ∀ m ∈ moments count env ops, ∀ n ∈ m.namings, n.expansion.name = none) :
    Numbered env.scope.config ns env.selves ((moments count env ops).flatMap Moment.namings)
      (ops.foldl Operation.apply env).selves := by
  induction ops generalizing env with
  | nil => exact .ofGrows (.refl _)
  | cons op ops ih =>
      rw [moments, List.forall_mem_append] at settled unnamed
      rw [moments, List.flatMap_append]
      obtain ⟨last, run, ended, grown⟩ := op.exists_steps env
      have first := Moment.numbered_trace run ended settled.1 unnamed.1
      have rest := ih settled.2 unnamed.2
      rw [(op.apply_changes env).config] at rest
      exact (first.mono grown).trans rest

/-- **Freshness.** Let the delimiter and the stem of the settings not begin with a digit. Whatever a
host does to an environment, and however far its runs are followed: as long as the default namespace
stays and only anonymous expansions are named, at the top level, inside each other and in modules, no
two of them get the same identity, those of forms that fail included. -/
theorem anonymous_identities_nodup (env : Environment) (separates : env.scope.config.Separates)
    (ops : List Operation) (count : Nat)
    (settled : ∀ m ∈ moments count env ops,
      m.env.scope.defaultNamespace = env.scope.defaultNamespace)
    (unnamed : ∀ m ∈ moments count env ops, ∀ n ∈ m.namings, n.expansion.name = none) :
    ((moments count env ops).flatMap fun m => m.namings.map fun n => n.identity.id).Nodup := by
  have identities := (numbered_moments settled unnamed).nodup separates
  have texts := identities.map (f := Uri.id) fun u v same => by
    cases u
    cases v
    exact congrArg Uri.mk same
  rw [List.map_map, List.map_flatMap] at texts
  exact texts

/-- A template with two anonymous expansions in its body, and an anonymous expansion of it. -/
def twins : List Form :=
  [.template ⟨.ofUri ⟨"u"⟩, [], none, [], {}⟩,
    .template ⟨.ofUri ⟨"t"⟩, [], none,
      [.expansion ⟨none, .name (.ofUri ⟨"u"⟩), [], [], {}⟩,
        .expansion ⟨none, .name (.ofUri ⟨"u"⟩), [], [], {}⟩], {}⟩,
    .expansion ⟨none, .name (.ofUri ⟨"t"⟩), [], [], {}⟩]

/-- They are in a module. Behind its import a triple fails after its subject, which is one more
expansion, was worked out; then there is another one. -/
def nursery : List Operation :=
  [.setModules { programs := [("lib", twins)] },
    .interpret [.imports "lib" {},
      .triple (.expansion ⟨none, .name (.ofUri ⟨"t"⟩), [], [], {}⟩) (.literal (.boolean true))
        (.literal (.boolean true)) {},
      .expansion ⟨none, .name (.ofUri ⟨"t"⟩), [], [], {}⟩]]

theorem identities_distinct_across_import_and_failure :
    ((moments 9 {} nursery).flatMap fun m => m.namings.map fun n => n.identity.id) =
        ["_0", "_0/_0", "_0/_1", "_1", "_1/_0", "_1/_1", "_2", "_2/_0", "_2/_1"] ∧
      (nursery.foldl Operation.apply {}).failures.length = 1 ∧
      ((moments 9 {} nursery).flatMap fun m => m.namings.map fun n => n.identity.id).Nodup := by
  refine ⟨by decide +kernel, by decide +kernel, ?_⟩
  have separates : Config.Separates {} := ⟨'/', rfl, rfl⟩
  exact anonymous_identities_nodup {} separates nursery 9 (by decide +kernel) (by decide +kernel)

end Environment

end Stencil
