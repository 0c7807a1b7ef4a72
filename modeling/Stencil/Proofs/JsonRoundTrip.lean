/- # Proofs.JsonRoundTrip -- a program that is written as JSON is read back

Writing puts every field of a node; reading allows fields to be missing, nodes to be lists and tags to be
objects. On what was written none of this leeway is used, and `Form.json_round_trip` says that a form
comes back as it was. Only a double that is not finite is lost, since JSON has no token for it, so the
constants of the form (`literals`) are asked to have none.

Reading a node takes a bound on the nesting, which counts the arrays and objects around its innermost
part. Each level of a node is one such array or object at least, so the depth of what was written is
bound enough (`Expr.ofJsonAt?_toJson` and its companions, by one recursion over all kinds of node).
-/
import Stencil.Program.Json

namespace Stencil
set_option autoImplicit false

/-! ## Parts of a JSON value -/

namespace Json

section Fields

variable {α β : Type} {j v : Json} {key k : String} {fields : List (String × Json)} {default a : α}
  {read : Json → Option α}

@[simp] theorem field?_cons_self : (Json.obj ((key, v) :: fields)).field? key = some v := by
  rw [field?, List.lookup_cons_self]

@[simp] theorem field?_cons_of_ne (other : key ≠ k) :
    (Json.obj ((k, v) :: fields)).field? key = (Json.obj fields).field? key := by
  rw [field?, List.lookup_cons, beq_false_of_ne other]
  rfl

theorem required_eq_some (field : j.field? key = some v) (value : read v = some a) :
    j.required key read = some a := by
  rw [required, field, Option.bind_some, value]

theorem fieldOr_eq_some (field : j.field? key = some v) (value : read v = some a) :
    j.fieldOr key default read = some a := by
  rw [fieldOr, field]
  exact value

/-- Reading goes on with what the first part was read as. -/
theorem bind_eq_some {x : Option α} {f : α → Option β} {b : β} (first : x = some a)
    (rest : f a = some b) : (x >>= f) = some b := by
  rw [first]
  exact rest

end Fields

/-- A list is read back when each of its elements is. -/
theorem list_map {α : Type} {read : Json → Option α} {write : α → Json} {as : List α}
    (each : ∀ a ∈ as, read (write a) = some a) :
    Json.list read (.arr (as.map write)) = some as := by
  change (as.map write).mapM read = some as
  induction as with
  | nil => rfl
  | cons a as ih =>
      have first := each a List.mem_cons_self
      have rest := ih fun b held => each b (List.mem_cons_of_mem a held)
      simp [first, rest]

theorem nat?_int {bound n : Nat} (small : n < bound) : (Json.int n).nat? bound = some n := by
  have inRange : (0 : Int) ≤ n ∧ (n : Int) < bound := by omega
  have read : (Json.int n).nat? bound =
      if (0 : Int) ≤ n ∧ (n : Int) < bound then some (n : Int).toNat else none := rfl
  rw [read, if_pos inRange, Int.toNat_natCast]

theorem uint64?_toNat (n : UInt64) : (Json.int n.toNat).uint64? = some n := by
  rw [uint64?, nat?_int n.toNat_lt_size, Option.map_some, UInt64.ofNat_toNat]

theorem uint32?_toNat (n : UInt32) : (Json.int n.toNat).uint32? = some n := by
  rw [uint32?, nat?_int n.toNat_lt_size, Option.map_some, UInt32.ofNat_toNat]

theorem int64?_toInt (n : Int64) : (Json.int n.toInt).int64? = some n := by
  have read : (Json.int n.toInt).int64? =
      if Int64.minValue.toInt ≤ n.toInt ∧ n.toInt ≤ Int64.maxValue.toInt
      then some (Int64.ofInt n.toInt) else none := rfl
  rw [read, if_pos ⟨n.minValue_le_toInt, n.toInt_le⟩, Int64.ofInt_toInt]

end Json

/-! ## Leaves -/

namespace Literal

/-- A constant that JSON has a token for. -/
def finite : Literal → Bool
  | .float x => x.isFinite
  | _ => true

theorem ofPayload?_payload {l : Literal} (finite : l.finite = true) :
    ofPayload? l.kind l.payload = some l := by
  cases l with
  | integer n => simp [ofPayload?, kind, payload, Json.int64?_toInt]
  | float x =>
      have token : Json.ofBinary64 x = .num (.float x) := if_pos finite
      simp [ofPayload?, kind, payload, token, Json.binary64?]
  | string s => simp [ofPayload?, kind, payload, Json.str?]
  | boolean b => simp [ofPayload?, kind, payload, Json.bool?]

theorem ofJson?_toJson (inForm byPlace : Bool) {l : Literal} (finite : l.finite = true) :
    ofJson? inForm byPlace l.toJson = some l := by
  have typed : Json.tag? inForm (.str l.kind) = some l.kind := rfl
  have valued : (Json.obj [("type", .str l.kind), ("value", l.payload)]).field? "value" =
      some l.payload := by
    simp
  unfold toJson ofJson?
  refine Json.bind_eq_some (Json.required_eq_some (by simp) typed) ?_
  exact Json.bind_eq_some valued (ofPayload?_payload finite)

end Literal

theorem Segment.ofJson?_toJson (inForm : Bool) (s : Segment) :
    Segment.ofJson? inForm s.toJson = some s := by
  cases s with
  | symbol text => simp [ofJson?, toJson, ofField?, Json.tag?, Json.single?, Json.isNothing, Json.str?]
  | uri u =>
      simp [ofJson?, toJson, ofField?, Json.tag?, Json.single?, Json.isNothing, Uri.toJson,
        Uri.ofJson?, Json.str?]
  | selfRef => simp [ofJson?, toJson, Json.tag?]

theorem Name.ofJson?_toJson (inForm : Bool) (n : Name) : Name.ofJson? inForm n.toJson = some n := by
  have segments : Json.list (Segment.ofJson? inForm) (.arr (n.segments.map Segment.toJson)) =
      some n.segments := Json.list_map fun s _ => Segment.ofJson?_toJson inForm s
  rw [ofJson?, toJson, segments]
  rfl

theorem Name.optional_toJsonOrNull (inForm : Bool) (n : Option Name) :
    Json.optional (Name.ofJson? inForm) (Name.toJsonOrNull n) = some n := by
  cases n with
  | none => rfl
  | some n =>
      have read := Name.ofJson?_toJson inForm n
      simp only [Name.toJsonOrNull, Name.toJson] at read ⊢
      simp [Json.optional, read]

theorem Location.ofJson?_toJson (l : Location) : Location.ofJson? l.toJson = some l := by
  obtain ⟨source, line, column⟩ := l
  have sourced : Json.optional Json.str? (Json.strOrNull source) = some source := by
    cases source <;> rfl
  unfold toJson ofJson?
  refine Json.bind_eq_some (Json.record?_obj _ _) ?_
  refine Json.bind_eq_some (Json.fieldOr_eq_some (by simp) sourced) ?_
  refine Json.bind_eq_some (Json.fieldOr_eq_some (by simp) (Json.uint32?_toNat line)) ?_
  exact Json.bind_eq_some (Json.fieldOr_eq_some (by simp) (Json.uint32?_toNat column)) rfl

theorem Parameter.ofJson?_toJson (p : Parameter) : Parameter.ofJson? p.toJson = some p := by
  obtain ⟨name, position⟩ := p
  have named : Json.str? (.str name) = some name := rfl
  unfold toJson ofJson?
  refine Json.bind_eq_some (Json.record?_obj _ _) ?_
  refine Json.bind_eq_some (Json.required_eq_some (by simp) named) ?_
  exact Json.bind_eq_some (Json.required_eq_some (by simp) (Json.uint64?_toNat position)) rfl

/-! ## The constants of a node -/

mutual

def Expr.literals : Expr → List Literal
  | .literal l => [l]
  | .name _ => []
  | .param _ => []
  | .expansion e => e.literals

def Argument.literals : Argument → List Literal
  | ⟨value, _⟩ => value.literals

def Property.literals : Property → List Literal
  | ⟨name, value, _⟩ => name.literals ++ value.literals

def ExtensionArg.literals : ExtensionArg → List Literal
  | .expr e => e.literals
  | .extension x => x.literals

def Extension.literals : Extension → List Literal
  | ⟨_, arguments, _⟩ => extensionArgLiterals arguments

def Item.literals : Item → List Literal
  | .property p => p.literals
  | .expansion e => e.literals
  | .extension x => x.literals

def Expansion.literals : Expansion → List Literal
  | ⟨_, template, arguments, body, _⟩ =>
    template.literals ++ (argumentLiterals arguments ++ itemLiterals body)

def argumentLiterals : List Argument → List Literal
  | [] => []
  | a :: as => a.literals ++ argumentLiterals as

def extensionArgLiterals : List ExtensionArg → List Literal
  | [] => []
  | a :: as => a.literals ++ extensionArgLiterals as

def itemLiterals : List Item → List Literal
  | [] => []
  | i :: is => i.literals ++ itemLiterals is

end

def Form.literals : Form → List Literal
  | .assignment _ value _ => value.literals
  | .template t => (t.base.elim [] fun b => argumentLiterals b.arguments) ++ itemLiterals t.body
  | .expansion e => e.literals
  | .triple subject predicate object _ =>
    subject.literals ++ (predicate.literals ++ object.literals)
  | _ => []

/-! ## Nodes -/

/-- All constants of a list have a token. -/
def AllFinite (ls : List Literal) : Prop := ∀ l ∈ ls, l.finite = true

@[simp] theorem allFinite_append {ls ms : List Literal} :
    AllFinite (ls ++ ms) ↔ AllFinite ls ∧ AllFinite ms := List.forall_mem_append

section Nodes

variable (inForm : Bool)

/-- A location is written as a field of many nodes. -/
theorem Location.ofField?_eq_some {j : Json} {l : Location}
    (field : j.field? "location" = some l.toJson) : Location.ofField? j = some l :=
  Json.fieldOr_eq_some field (Location.ofJson?_toJson l)

mutual

theorem Expr.ofJsonAt?_toJson :
    ∀ (e : Expr) (n : Nat), AllFinite e.literals → e.toJson.depth ≤ n →
      Expr.ofJsonAt? inForm n e.toJson = some e
  | e, 0, _, bounded => by
      cases e <;> simp [Expr.toJson, Json.depth] at bounded
  | .literal l, n + 1, finite, _ => by
      have read := Literal.ofJson?_toJson inForm inForm (finite l (by simp [Expr.literals]))
      rw [Expr.toJson, Expr.ofJsonAt?]
      -- one key is there, and comparing it with the tags leaves the branch that reads its value
      exact Json.bind_eq_some rfl (by simp [read])
  | .name m, n + 1, _, _ => by
      have read := Name.ofJson?_toJson inForm m
      rw [Expr.toJson, Expr.ofJsonAt?]
      exact Json.bind_eq_some rfl (by simp [read])
  | .param p, n + 1, _, _ => by
      have read := Parameter.ofJson?_toJson p
      rw [Expr.toJson, Expr.ofJsonAt?]
      exact Json.bind_eq_some rfl (by simp [read])
  | .expansion e, n + 1, finite, bounded => by
      have inside : (Json.obj e.fields).depth ≤ n := by
        simpa [Expr.toJson, Json.depth, Json.depthFields] using bounded
      have read := Expansion.ofJsonAt?_fields e n (by simpa only [Expr.literals] using finite) inside
      rw [Expr.toJson, Expr.ofJsonAt?]
      exact Json.bind_eq_some rfl (by simp [read])

theorem Argument.ofJsonAt?_toJson :
    ∀ (a : Argument) (n : Nat), AllFinite a.literals → a.toJson.depth ≤ n →
      Argument.ofJsonAt? inForm n a.toJson = some a
  | ⟨value, position⟩, 0, _, bounded => by simp [Argument.toJson, Json.depth] at bounded
  | ⟨value, position⟩, n + 1, finite, bounded => by
      simp only [Argument.toJson, Json.depth, Json.depthFields] at bounded
      have read := Expr.ofJsonAt?_toJson value n (by simpa only [Argument.literals] using finite)
        (by omega)
      unfold Argument.toJson Argument.ofJsonAt?
      refine Json.bind_eq_some (Json.record?_obj _ _) ?_
      refine Json.bind_eq_some (Json.required_eq_some (by simp) read) ?_
      exact Json.bind_eq_some (Json.required_eq_some (by simp) (Json.uint64?_toNat position)) rfl

theorem Property.ofJsonAt?_toJson :
    ∀ (p : Property) (n : Nat), AllFinite p.literals → p.toJson.depth ≤ n →
      Property.ofJsonAt? inForm n p.toJson = some p
  | ⟨name, value, location⟩, 0, _, bounded => by simp [Property.toJson, Json.depth] at bounded
  | ⟨name, value, location⟩, n + 1, finite, bounded => by
      simp only [Property.toJson, Json.depth, Json.depthFields] at bounded
      rw [Property.literals, allFinite_append] at finite
      have named := Expr.ofJsonAt?_toJson name n finite.1 (by omega)
      have valued := Expr.ofJsonAt?_toJson value n finite.2 (by omega)
      unfold Property.toJson Property.ofJsonAt?
      refine Json.bind_eq_some (Json.record?_obj _ _) ?_
      refine Json.bind_eq_some (Json.required_eq_some (by simp) named) ?_
      refine Json.bind_eq_some (Json.required_eq_some (by simp) valued) ?_
      exact Json.bind_eq_some (Location.ofField?_eq_some (by simp)) rfl

theorem ExtensionArg.ofJsonAt?_toJson :
    ∀ (a : ExtensionArg) (n : Nat), AllFinite a.literals → a.toJson.depth ≤ n →
      ExtensionArg.ofJsonAt? inForm n a.toJson = some a
  | a, 0, _, bounded => by
      cases a <;> simp [ExtensionArg.toJson, Json.depth] at bounded
  | .expr e, n + 1, finite, bounded => by
      have inside : e.toJson.depth ≤ n := by
        simpa [ExtensionArg.toJson, Json.depth, Json.depthFields] using bounded
      have read := Expr.ofJsonAt?_toJson e n (by simpa only [ExtensionArg.literals] using finite)
        inside
      rw [ExtensionArg.toJson, ExtensionArg.ofJsonAt?]
      exact Json.bind_eq_some rfl (by simp [read])
  | .extension x, n + 1, finite, bounded => by
      have inside : x.toJson.depth ≤ n := by
        simpa [ExtensionArg.toJson, Json.depth, Json.depthFields] using bounded
      have read := Extension.ofJsonAt?_toJson x n
        (by simpa only [ExtensionArg.literals] using finite) inside
      rw [ExtensionArg.toJson, ExtensionArg.ofJsonAt?]
      exact Json.bind_eq_some rfl (by simp [read])

theorem Extension.ofJsonAt?_toJson :
    ∀ (x : Extension) (n : Nat), AllFinite x.literals → x.toJson.depth ≤ n →
      Extension.ofJsonAt? inForm n x.toJson = some x
  | ⟨validator, arguments, location⟩, 0, _, bounded => by
      simp [Extension.toJson, Json.depth] at bounded
  | ⟨validator, arguments, location⟩, n + 1, finite, bounded => by
      simp only [Extension.toJson, Json.depth, Json.depthFields] at bounded
      have named : Json.str? (.str validator) = some validator := rfl
      have read : Json.list (ExtensionArg.ofJsonAt? inForm n) (.arr (extensionArgsToJson arguments)) =
          some arguments :=
        mapM_extensionArgsToJson arguments n (by simpa only [Extension.literals] using finite)
          (by omega)
      unfold Extension.toJson Extension.ofJsonAt?
      refine Json.bind_eq_some (Json.record?_obj _ _) ?_
      refine Json.bind_eq_some (Json.required_eq_some (by simp) named) ?_
      refine Json.bind_eq_some (Json.fieldOr_eq_some (by simp) read) ?_
      exact Json.bind_eq_some (Location.ofField?_eq_some (by simp)) rfl

theorem Item.ofJsonAt?_toJson :
    ∀ (i : Item) (n : Nat), AllFinite i.literals → i.toJson.depth ≤ n →
      Item.ofJsonAt? inForm n i.toJson = some i
  | i, 0, _, bounded => by
      cases i <;> simp [Item.toJson, Json.depth] at bounded
  | .property p, n + 1, finite, bounded => by
      have inside : p.toJson.depth ≤ n := by
        simpa [Item.toJson, Json.depth, Json.depthFields] using bounded
      have read := Property.ofJsonAt?_toJson p n (by simpa only [Item.literals] using finite) inside
      rw [Item.toJson, Item.ofJsonAt?]
      exact Json.bind_eq_some rfl (by simp [read])
  | .expansion e, n + 1, finite, bounded => by
      have inside : (Json.obj e.fields).depth ≤ n := by
        simpa [Item.toJson, Json.depth, Json.depthFields] using bounded
      have read := Expansion.ofJsonAt?_fields e n (by simpa only [Item.literals] using finite) inside
      rw [Item.toJson, Item.ofJsonAt?]
      exact Json.bind_eq_some rfl (by simp [read])
  | .extension x, n + 1, finite, bounded => by
      have inside : x.toJson.depth ≤ n := by
        simpa [Item.toJson, Json.depth, Json.depthFields] using bounded
      have read := Extension.ofJsonAt?_toJson x n (by simpa only [Item.literals] using finite) inside
      rw [Item.toJson, Item.ofJsonAt?]
      exact Json.bind_eq_some rfl (by simp [read])

theorem Expansion.ofJsonAt?_fields :
    ∀ (e : Expansion) (n : Nat), AllFinite e.literals → (Json.obj e.fields).depth ≤ n →
      Expansion.ofJsonAt? inForm n (.obj e.fields) = some e
  | ⟨name, template, arguments, body, location⟩, 0, _, bounded => by
      simp [Json.depth] at bounded
  | ⟨name, template, arguments, body, location⟩, n + 1, finite, bounded => by
      simp only [Expansion.fields, Json.depth, Json.depthFields] at bounded
      rw [Expansion.literals, allFinite_append, allFinite_append] at finite
      have based := Expr.ofJsonAt?_toJson template n finite.1 (by omega)
      have given : Json.list (Argument.ofJsonAt? inForm n) (.arr (argumentsToJson arguments)) =
          some arguments := mapM_argumentsToJson arguments n finite.2.1 (by omega)
      have held : Json.list (Item.ofJsonAt? inForm n) (.arr (itemsToJson body)) = some body :=
        mapM_itemsToJson body n finite.2.2 (by omega)
      unfold Expansion.fields Expansion.ofJsonAt?
      refine Json.bind_eq_some (Json.record?_obj _ _) ?_
      refine Json.bind_eq_some
        (Json.fieldOr_eq_some (by simp) (Name.optional_toJsonOrNull inForm name)) ?_
      refine Json.bind_eq_some (Json.required_eq_some (by simp) based) ?_
      refine Json.bind_eq_some (Json.fieldOr_eq_some (by simp) given) ?_
      refine Json.bind_eq_some (Json.fieldOr_eq_some (by simp) held) ?_
      exact Json.bind_eq_some (Location.ofField?_eq_some (by simp)) rfl

theorem mapM_argumentsToJson :
    ∀ (as : List Argument) (n : Nat), AllFinite (argumentLiterals as) →
      Json.depthItems (argumentsToJson as) ≤ n →
      (argumentsToJson as).mapM (Argument.ofJsonAt? inForm n) = some as
  | [], _, _, _ => rfl
  | a :: as, n, finite, bounded => by
      rw [argumentLiterals, allFinite_append] at finite
      rw [argumentsToJson, Json.depthItems] at bounded
      have first := Argument.ofJsonAt?_toJson a n finite.1 (by omega)
      have rest := mapM_argumentsToJson as n finite.2 (by omega)
      simp [argumentsToJson, first, rest]

theorem mapM_extensionArgsToJson :
    ∀ (as : List ExtensionArg) (n : Nat), AllFinite (extensionArgLiterals as) →
      Json.depthItems (extensionArgsToJson as) ≤ n →
      (extensionArgsToJson as).mapM (ExtensionArg.ofJsonAt? inForm n) = some as
  | [], _, _, _ => rfl
  | a :: as, n, finite, bounded => by
      rw [extensionArgLiterals, allFinite_append] at finite
      rw [extensionArgsToJson, Json.depthItems] at bounded
      have first := ExtensionArg.ofJsonAt?_toJson a n finite.1 (by omega)
      have rest := mapM_extensionArgsToJson as n finite.2 (by omega)
      simp [extensionArgsToJson, first, rest]

theorem mapM_itemsToJson :
    ∀ (is : List Item) (n : Nat), AllFinite (itemLiterals is) →
      Json.depthItems (itemsToJson is) ≤ n →
      (itemsToJson is).mapM (Item.ofJsonAt? inForm n) = some is
  | [], _, _, _ => rfl
  | i :: is, n, finite, bounded => by
      rw [itemLiterals, allFinite_append] at finite
      rw [itemsToJson, Json.depthItems] at bounded
      have first := Item.ofJsonAt?_toJson i n finite.1 (by omega)
      have rest := mapM_itemsToJson is n finite.2 (by omega)
      simp [itemsToJson, first, rest]

end

theorem list_argumentsToJson {as : List Argument} (finite : AllFinite (argumentLiterals as)) :
    Json.list (Argument.ofJson? inForm) (.arr (argumentsToJson as)) = some as := by
  change (argumentsToJson as).mapM (Argument.ofJson? inForm) = some as
  induction as with
  | nil => rfl
  | cons a as ih =>
      rw [argumentLiterals, allFinite_append] at finite
      have first : Argument.ofJson? inForm a.toJson = some a :=
        Argument.ofJsonAt?_toJson inForm a _ finite.1 (Nat.le_refl _)
      simp [argumentsToJson, first, ih finite.2]

theorem list_itemsToJson {is : List Item} (finite : AllFinite (itemLiterals is)) :
    Json.list (Item.ofJson? inForm) (.arr (itemsToJson is)) = some is := by
  change (itemsToJson is).mapM (Item.ofJson? inForm) = some is
  induction is with
  | nil => rfl
  | cons i is ih =>
      rw [itemLiterals, allFinite_append] at finite
      have first : Item.ofJson? inForm i.toJson = some i :=
        Item.ofJsonAt?_toJson inForm i _ finite.1 (Nat.le_refl _)
      simp [itemsToJson, first, ih finite.2]

theorem Expr.ofJson?_toJson {e : Expr} (finite : AllFinite e.literals) :
    Expr.ofJson? inForm e.toJson = some e :=
  Expr.ofJsonAt?_toJson inForm e _ finite (Nat.le_refl _)

theorem Base.ofJson?_toJson {b : Base} (finite : AllFinite (argumentLiterals b.arguments)) :
    Base.ofJson? inForm b.toJson = some b := by
  obtain ⟨template, arguments⟩ := b
  unfold toJson ofJson?
  refine Json.bind_eq_some (Json.record?_obj _ _) ?_
  refine Json.bind_eq_some
    (Json.required_eq_some (by simp) (Name.ofJson?_toJson inForm template)) ?_
  exact Json.bind_eq_some
    (Json.fieldOr_eq_some (by simp) (list_argumentsToJson inForm finite)) rfl

theorem Base.optional_toJsonOrNull {b : Option Base}
    (finite : AllFinite (b.elim [] fun b => argumentLiterals b.arguments)) :
    Json.optional (Base.ofJson? inForm) (Base.toJsonOrNull b) = some b := by
  cases b with
  | none => rfl
  | some b =>
      have read := Base.ofJson?_toJson inForm (b := b) finite
      simp only [Base.toJsonOrNull, Base.toJson] at read ⊢
      simp [Json.optional, read]

end Nodes

/-! ## Forms

The kind of a form stands as a field before those of its node, whose readers look at their own keys
only. -/

theorem Template.ofJson?_fields {t : Template} (kind : Json)
    (finite : AllFinite (Form.template t).literals) :
    Template.ofJson? true (.obj (("form", kind) :: t.fields)) = some t := by
  obtain ⟨name, parameters, base, body, location⟩ := t
  rw [Form.literals, allFinite_append] at finite
  have listed : Json.list Parameter.ofJson? (.arr (parameters.map Parameter.toJson)) =
      some parameters := Json.list_map fun p _ => Parameter.ofJson?_toJson p
  unfold fields ofJson?
  refine Json.bind_eq_some (Json.record?_obj _ _) ?_
  refine Json.bind_eq_some (Json.required_eq_some (by simp) (Name.ofJson?_toJson true name)) ?_
  refine Json.bind_eq_some (Json.fieldOr_eq_some (by simp) listed) ?_
  refine Json.bind_eq_some
    (Json.fieldOr_eq_some (by simp) (Base.optional_toJsonOrNull true finite.1)) ?_
  refine Json.bind_eq_some (Json.fieldOr_eq_some (by simp) (list_itemsToJson true finite.2)) ?_
  exact Json.bind_eq_some (Location.ofField?_eq_some (by simp)) rfl

theorem Expansion.ofJsonAt?_beside (n : Nat) (kind : Json) (fields : List (String × Json)) :
    Expansion.ofJsonAt? true n (.obj (("form", kind) :: fields)) =
      Expansion.ofJsonAt? true n (.obj fields) := by
  cases n with
  | zero => rfl
  | succ n =>
      unfold Expansion.ofJsonAt?
      rw [Json.record?_obj, Json.record?_obj]
      simp [Location.ofField?, Json.fieldOr, Json.required]

namespace Form

theorem ofJson?_of_kind {kind : String} {rest : List (String × Json)} {f : Form}
    (read : ofKind? kind (.obj (("form", .str kind) :: rest)) = some f) :
    ofJson? (.obj (("form", .str kind) :: rest)) = some f := by
  have named : Json.str? (.str kind) = some kind := rfl
  exact Json.bind_eq_some (Json.required_eq_some Json.field?_cons_self named) read

theorem ofJson?_assignment {name : Name} {value : Expr} {location : Location}
    (finite : AllFinite value.literals) :
    ofJson? (toJson (.assignment name value location)) = some (.assignment name value location) := by
  refine ofJson?_of_kind ?_
  rw [ofKind?, if_pos rfl]
  refine Json.bind_eq_some (Json.record?_obj _ _) ?_
  refine Json.bind_eq_some (Json.required_eq_some (by simp) (Name.ofJson?_toJson true name)) ?_
  refine Json.bind_eq_some (Json.required_eq_some (by simp) (Expr.ofJson?_toJson true finite)) ?_
  exact Json.bind_eq_some (Location.ofField?_eq_some (by simp)) rfl

theorem ofJson?_template {t : Template} (finite : AllFinite (Form.template t).literals) :
    ofJson? (toJson (.template t)) = some (.template t) := by
  have read := Template.ofJson?_fields (.str "template") finite
  refine ofJson?_of_kind ?_
  simp [ofKind?, read]

theorem ofJson?_expansion {e : Expansion} (finite : AllFinite e.literals) :
    ofJson? (toJson (.expansion e)) = some (.expansion e) := by
  have deep : (Json.obj e.fields).depth ≤
      (Json.obj (("form", .str "expansion") :: e.fields)).depth := by
    simp only [Json.depth, Json.depthFields]
    omega
  have read : Expansion.ofJson? true (.obj (("form", .str "expansion") :: e.fields)) = some e := by
    rw [Expansion.ofJson?, Expansion.ofJsonAt?_beside]
    exact Expansion.ofJsonAt?_fields true e _ finite deep
  refine ofJson?_of_kind ?_
  simp [ofKind?, read]

theorem ofJson?_triple {subject predicate object : Expr} {location : Location}
    (finite : AllFinite (Form.triple subject predicate object location).literals) :
    ofJson? (toJson (.triple subject predicate object location)) =
      some (.triple subject predicate object location) := by
  rw [literals, allFinite_append, allFinite_append] at finite
  refine ofJson?_of_kind ?_
  simp only [ofKind?, String.reduceEq, reduceIte]
  refine Json.bind_eq_some (Json.record?_obj _ _) ?_
  refine Json.bind_eq_some
    (Json.required_eq_some (by simp) (Expr.ofJson?_toJson true finite.1)) ?_
  refine Json.bind_eq_some
    (Json.required_eq_some (by simp) (Expr.ofJson?_toJson true finite.2.1)) ?_
  refine Json.bind_eq_some
    (Json.required_eq_some (by simp) (Expr.ofJson?_toJson true finite.2.2)) ?_
  exact Json.bind_eq_some (Location.ofField?_eq_some (by simp)) rfl

theorem ofJson?_bindPrefix (symbol : String) (ns : Uri) (location : Location) :
    ofJson? (toJson (.bindPrefix symbol ns location)) = some (.bindPrefix symbol ns location) := by
  have named : Json.str? (.str symbol) = some symbol := rfl
  have bound : Uri.ofJson? ns.toJson = some ns := rfl
  refine ofJson?_of_kind ?_
  simp only [ofKind?, String.reduceEq, reduceIte]
  refine Json.bind_eq_some (Json.record?_obj _ _) ?_
  refine Json.bind_eq_some (Json.required_eq_some (by simp) named) ?_
  refine Json.bind_eq_some (Json.required_eq_some (by simp) bound) ?_
  exact Json.bind_eq_some (Location.ofField?_eq_some (by simp)) rfl

theorem ofJson?_defaultPrefix (symbol : String) (location : Location) :
    ofJson? (toJson (.defaultPrefix symbol location)) = some (.defaultPrefix symbol location) := by
  have named : Json.str? (.str symbol) = some symbol := rfl
  refine ofJson?_of_kind ?_
  simp only [ofKind?, String.reduceEq, reduceIte]
  refine Json.bind_eq_some (Json.record?_obj _ _) ?_
  refine Json.bind_eq_some (Json.required_eq_some (by simp) named) ?_
  exact Json.bind_eq_some (Location.ofField?_eq_some (by simp)) rfl

theorem ofJson?_imports (path : String) (location : Location) :
    ofJson? (toJson (.imports path location)) = some (.imports path location) := by
  have named : Json.str? (.str path) = some path := rfl
  refine ofJson?_of_kind ?_
  simp only [ofKind?, String.reduceEq, reduceIte]
  refine Json.bind_eq_some (Json.record?_obj _ _) ?_
  refine Json.bind_eq_some (Json.required_eq_some (by simp) named) ?_
  exact Json.bind_eq_some (Location.ofField?_eq_some (by simp)) rfl

/-- A form whose doubles are finite is read back from what it is written as. -/
theorem json_round_trip (f : Form)
    (finite : ∀ x, Literal.float x ∈ f.literals → x.isFinite = true) :
    Form.ofJson? f.toJson = some f := by
  have constants : AllFinite f.literals := by
    intro l held
    cases l with
    | float x => exact finite x held
    | _ => rfl
  cases f with
  | assignment name value location => exact ofJson?_assignment constants
  | template t => exact ofJson?_template constants
  | expansion e => exact ofJson?_expansion constants
  | triple subject predicate object location => exact ofJson?_triple constants
  | bindPrefix symbol ns location => exact ofJson?_bindPrefix symbol ns location
  | defaultPrefix symbol location => exact ofJson?_defaultPrefix symbol location
  | imports path location => exact ofJson?_imports path location

/-- A template whose base is handed a half, with a validator inside a validator that is handed an
expansion. -/
def cabinet : Form :=
  .template
    { name := ⟨.symbol "cabinet", [.uri ⟨"x/"⟩, .selfRef]⟩
      parameters := [⟨"depth", 7⟩]
      base := some ⟨⟨.symbol "box", []⟩, [⟨.literal (.float ⟨0x3FE0000000000000⟩), 3⟩]⟩
      body :=
        [.extension ⟨"all", [.extension ⟨"each", [.expr (.expansion
          ⟨none, .name ⟨.selfRef, []⟩, [⟨.param ⟨"depth", 7⟩, 0⟩],
            [.property ⟨.name ⟨.symbol "p", []⟩, .literal (.string "oak"), {}⟩],
            ⟨some "c", 2, 9⟩⟩)], {}⟩], {}⟩]
      location := {} }

theorem nested_template_json_round_trip :
    cabinet.literals = [.float ⟨0x3FE0000000000000⟩, .string "oak"] ∧
      Form.ofJson? cabinet.toJson = some cabinet := by
  have constants : cabinet.literals = [.float ⟨0x3FE0000000000000⟩, .string "oak"] := rfl
  refine ⟨constants, json_round_trip cabinet fun x held => ?_⟩
  have half : x = ⟨0x3FE0000000000000⟩ := by simpa [constants] using held
  rw [half]
  decide

end Form

end Stencil
