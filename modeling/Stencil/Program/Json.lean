/- # Program.Json -- programs as JSON

A node with fields is an object; a list of its fields in their order is read as well (`Json.record?`). A
node with alternatives is an object with one key that names the alternative, except for a form, whose
fields stand beside a key `form`, or behind its kind in a list. Lists, locations, bases and names of
expansions may be missing; writing puts every field. Reading follows the nesting of the JSON value, whose
depth bounds it.
-/
import Stencil.Name.Json
import Stencil.Program.Basic

namespace Stencil
set_option autoImplicit false

/-! ## Leaves -/

namespace Location

def toJson (l : Location) : Json :=
  .obj [("source", .strOrNull l.source), ("line", .int l.line.toNat), ("column", .int l.column.toNat)]

def ofJson? (j : Json) : Option Location := do
  let j ← j.record? ["source", "line", "column"]
  let source ← j.fieldOr "source" none (Json.optional Json.str?)
  let line ← j.fieldOr "line" 0 Json.uint32?
  let column ← j.fieldOr "column" 0 Json.uint32?
  return { source, line, column }

/-- The location under the key `location`, the unknown one where it is missing. -/
def ofField? (j : Json) : Option Location := j.fieldOr "location" {} ofJson?

end Location

namespace Parameter

def toJson (p : Parameter) : Json := .obj [("name", .str p.name), ("position", .int p.position.toNat)]

def ofJson? (j : Json) : Option Parameter := do
  let j ← j.record? ["name", "position"]
  let name ← j.required "name" Json.str?
  let position ← j.required "position" Json.uint64?
  return { name, position }

end Parameter

/-- A name, or null for none. -/
def Name.toJsonOrNull : Option Name → Json
  | some n => n.toJson
  | none => .null

/-! ## Writing -/

mutual

def Expr.toJson : Expr → Json
  | .literal l => .obj [("literal", l.toJson)]
  | .name n => .obj [("name", n.toJson)]
  | .param p => .obj [("param", p.toJson)]
  | .expansion e => .obj [("expansion", .obj e.fields)]

def Argument.toJson : Argument → Json
  | ⟨value, position⟩ => .obj [("value", value.toJson), ("position", .int position.toNat)]

def Property.toJson : Property → Json
  | ⟨name, value, location⟩ =>
    .obj [("name", name.toJson), ("value", value.toJson), ("location", location.toJson)]

def ExtensionArg.toJson : ExtensionArg → Json
  | .expr e => .obj [("expr", e.toJson)]
  | .extension x => .obj [("extension", x.toJson)]

def Extension.toJson : Extension → Json
  | ⟨validator, arguments, location⟩ =>
    .obj [("validator", .str validator), ("arguments", .arr (extensionArgsToJson arguments)),
      ("location", location.toJson)]

def Item.toJson : Item → Json
  | .property p => .obj [("property", p.toJson)]
  | .expansion e => .obj [("expansion", .obj e.fields)]
  | .extension x => .obj [("extension", x.toJson)]

/-- The fields of an expansion, which a form writes beside its own. -/
def Expansion.fields : Expansion → List (String × Json)
  | ⟨name, template, arguments, body, location⟩ =>
    [("name", Name.toJsonOrNull name), ("template", template.toJson),
      ("arguments", .arr (argumentsToJson arguments)), ("body", .arr (itemsToJson body)),
      ("location", location.toJson)]

def argumentsToJson : List Argument → List Json
  | [] => []
  | a :: as => a.toJson :: argumentsToJson as

def extensionArgsToJson : List ExtensionArg → List Json
  | [] => []
  | a :: as => a.toJson :: extensionArgsToJson as

def itemsToJson : List Item → List Json
  | [] => []
  | i :: is => i.toJson :: itemsToJson is

end

def Expansion.toJson (e : Expansion) : Json := .obj e.fields

namespace Base

def toJson (b : Base) : Json :=
  .obj [("template", b.template.toJson), ("arguments", .arr (argumentsToJson b.arguments))]

def toJsonOrNull : Option Base → Json
  | some b => b.toJson
  | none => .null

end Base

namespace Template

/-- The fields of a template, which a form writes beside its own. -/
def fields (t : Template) : List (String × Json) :=
  [("name", t.name.toJson), ("parameters", .arr (t.parameters.map Parameter.toJson)),
    ("base", Base.toJsonOrNull t.base), ("body", .arr (itemsToJson t.body)),
    ("location", t.location.toJson)]

def toJson (t : Template) : Json := .obj t.fields

end Template

namespace Form

/-- The fields of a form, its kind first. -/
def fields : Form → List (String × Json)
  | .assignment name value location =>
    [("form", .str "assignment"), ("name", name.toJson), ("value", value.toJson),
      ("location", location.toJson)]
  | .template t => ("form", .str "template") :: t.fields
  | .expansion e => ("form", .str "expansion") :: e.fields
  | .triple subject predicate object location =>
    [("form", .str "triple"), ("subject", subject.toJson), ("predicate", predicate.toJson),
      ("object", object.toJson), ("location", location.toJson)]
  | .bindPrefix symbol ns location =>
    [("form", .str "prefix"), ("symbol", .str symbol), ("namespace", ns.toJson),
      ("location", location.toJson)]
  | .defaultPrefix symbol location =>
    [("form", .str "default_prefix"), ("symbol", .str symbol), ("location", location.toJson)]
  | .imports path location =>
    [("form", .str "import"), ("path", .str path), ("location", location.toJson)]

def toJson (f : Form) : Json := .obj f.fields

end Form

/-! ## Reading

The readers are told whether the node is part of a form, where an empty object under a tag means
nothing. -/

section Reading

variable (inForm : Bool)

mutual

def Expr.ofJsonAt? : Nat → Json → Option Expr
  | 0, _ => none
  | n + 1, j => do
    let (key, value) ← j.single?
    if key = "literal" then (Literal.ofJson? inForm inForm value).map .literal
    else if key = "name" then (Name.ofJson? inForm value).map .name
    else if key = "param" then (Parameter.ofJson? value).map .param
    else if key = "expansion" then (Expansion.ofJsonAt? n value).map .expansion
    else none

def Argument.ofJsonAt? : Nat → Json → Option Argument
  | 0, _ => none
  | n + 1, j => do
    let j ← j.record? ["value", "position"]
    let value ← j.required "value" (Expr.ofJsonAt? n)
    let position ← j.required "position" Json.uint64?
    return ⟨value, position⟩

def Property.ofJsonAt? : Nat → Json → Option Property
  | 0, _ => none
  | n + 1, j => do
    let j ← j.record? ["name", "value", "location"]
    let name ← j.required "name" (Expr.ofJsonAt? n)
    let value ← j.required "value" (Expr.ofJsonAt? n)
    let location ← Location.ofField? j
    return ⟨name, value, location⟩

def ExtensionArg.ofJsonAt? : Nat → Json → Option ExtensionArg
  | 0, _ => none
  | n + 1, j => do
    let (key, value) ← j.single?
    if key = "expr" then (Expr.ofJsonAt? n value).map .expr
    else if key = "extension" then (Extension.ofJsonAt? n value).map .extension
    else none

def Extension.ofJsonAt? : Nat → Json → Option Extension
  | 0, _ => none
  | n + 1, j => do
    let j ← j.record? ["validator", "arguments", "location"]
    let validator ← j.required "validator" Json.str?
    let arguments ← j.fieldOr "arguments" [] (Json.list (ExtensionArg.ofJsonAt? n))
    let location ← Location.ofField? j
    return ⟨validator, arguments, location⟩

def Item.ofJsonAt? : Nat → Json → Option Item
  | 0, _ => none
  | n + 1, j => do
    let (key, value) ← j.single?
    if key = "property" then (Property.ofJsonAt? n value).map .property
    else if key = "expansion" then (Expansion.ofJsonAt? n value).map .expansion
    else if key = "extension" then (Extension.ofJsonAt? n value).map .extension
    else none

def Expansion.ofJsonAt? : Nat → Json → Option Expansion
  | 0, _ => none
  | n + 1, j => do
    let j ← j.record? ["name", "template", "arguments", "body", "location"]
    let name ← j.fieldOr "name" none (Json.optional (Name.ofJson? inForm))
    let template ← j.required "template" (Expr.ofJsonAt? n)
    let arguments ← j.fieldOr "arguments" [] (Json.list (Argument.ofJsonAt? n))
    let body ← j.fieldOr "body" [] (Json.list (Item.ofJsonAt? n))
    let location ← Location.ofField? j
    return ⟨name, template, arguments, body, location⟩

end

def Expr.ofJson? (j : Json) : Option Expr := Expr.ofJsonAt? inForm j.depth j

def Argument.ofJson? (j : Json) : Option Argument := Argument.ofJsonAt? inForm j.depth j

def Property.ofJson? (j : Json) : Option Property := Property.ofJsonAt? inForm j.depth j

def ExtensionArg.ofJson? (j : Json) : Option ExtensionArg := ExtensionArg.ofJsonAt? inForm j.depth j

def Extension.ofJson? (j : Json) : Option Extension := Extension.ofJsonAt? inForm j.depth j

def Item.ofJson? (j : Json) : Option Item := Item.ofJsonAt? inForm j.depth j

def Expansion.ofJson? (j : Json) : Option Expansion := Expansion.ofJsonAt? inForm j.depth j

def Base.ofJson? (j : Json) : Option Base := do
  let j ← j.record? ["template", "arguments"]
  let template ← j.required "template" (Name.ofJson? inForm)
  let arguments ← j.fieldOr "arguments" [] (Json.list (Argument.ofJson? inForm))
  return ⟨template, arguments⟩

def Template.ofJson? (j : Json) : Option Template := do
  let j ← j.record? ["name", "parameters", "base", "body", "location"]
  let name ← j.required "name" (Name.ofJson? inForm)
  let parameters ← j.fieldOr "parameters" [] (Json.list Parameter.ofJson?)
  let base ← j.fieldOr "base" none (Json.optional (Base.ofJson? inForm))
  let body ← j.fieldOr "body" [] (Json.list (Item.ofJson? inForm))
  let location ← Location.ofField? j
  return ⟨name, parameters, base, body, location⟩

end Reading

namespace Form

/-- A form of the named kind from its fields. -/
def ofKind? (kind : String) (j : Json) : Option Form := do
  if kind = "assignment" then
    let j ← j.record? ["name", "value", "location"]
    let name ← j.required "name" (Name.ofJson? true)
    let value ← j.required "value" (Expr.ofJson? true)
    let location ← Location.ofField? j
    return .assignment name value location
  else if kind = "template" then (Template.ofJson? true j).map .template
  else if kind = "expansion" then (Expansion.ofJson? true j).map .expansion
  else if kind = "triple" then
    let j ← j.record? ["subject", "predicate", "object", "location"]
    let subject ← j.required "subject" (Expr.ofJson? true)
    let predicate ← j.required "predicate" (Expr.ofJson? true)
    let object ← j.required "object" (Expr.ofJson? true)
    let location ← Location.ofField? j
    return .triple subject predicate object location
  else if kind = "prefix" then
    let j ← j.record? ["symbol", "namespace", "location"]
    let symbol ← j.required "symbol" Json.str?
    let ns ← j.required "namespace" Uri.ofJson?
    let location ← Location.ofField? j
    return .bindPrefix symbol ns location
  else if kind = "default_prefix" then
    let j ← j.record? ["symbol", "location"]
    let symbol ← j.required "symbol" Json.str?
    let location ← Location.ofField? j
    return .defaultPrefix symbol location
  else if kind = "import" then
    let j ← j.record? ["path", "location"]
    let path ← j.required "path" Json.str?
    let location ← Location.ofField? j
    return .imports path location
  else none

def ofJson? : Json → Option Form
  | .arr (.str kind :: fields) => ofKind? kind (.arr fields)
  | j => (j.required "form" Json.str?).bind fun kind => ofKind? kind j

end Form

end Stencil
