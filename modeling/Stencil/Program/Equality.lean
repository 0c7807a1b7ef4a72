/- # Program.Equality -- deciding whether two nodes are equal

The nodes of a program nest through lists, so equality is decided by a walk over both nodes at once;
`same_iff` says for each kind of node that the walk answers equality.
-/
import Stencil.Program.Basic

namespace Stencil
set_option autoImplicit false

mutual

def Expr.same : Expr → Expr → Bool
  | .literal a, .literal b => a = b
  | .name a, .name b => a = b
  | .param a, .param b => a = b
  | .expansion a, .expansion b => a.same b
  | _, _ => false

def Argument.same : Argument → Argument → Bool
  | ⟨v, p⟩, ⟨w, q⟩ => v.same w && p = q

def Property.same : Property → Property → Bool
  | ⟨n, v, l⟩, ⟨m, w, k⟩ => n.same m && v.same w && l = k

def ExtensionArg.same : ExtensionArg → ExtensionArg → Bool
  | .expr a, .expr b => a.same b
  | .extension a, .extension b => a.same b
  | _, _ => false

def Extension.same : Extension → Extension → Bool
  | ⟨v, as, l⟩, ⟨w, bs, k⟩ => v = w && sameExtensionArgs as bs && l = k

def Item.same : Item → Item → Bool
  | .property a, .property b => a.same b
  | .expansion a, .expansion b => a.same b
  | .extension a, .extension b => a.same b
  | _, _ => false

def Expansion.same : Expansion → Expansion → Bool
  | ⟨n, t, as, is, l⟩, ⟨m, u, bs, js, k⟩ =>
    n = m && t.same u && sameArguments as bs && sameItems is js && l = k

def sameArguments : List Argument → List Argument → Bool
  | [], [] => true
  | a :: as, b :: bs => a.same b && sameArguments as bs
  | _, _ => false

def sameExtensionArgs : List ExtensionArg → List ExtensionArg → Bool
  | [], [] => true
  | a :: as, b :: bs => a.same b && sameExtensionArgs as bs
  | _, _ => false

def sameItems : List Item → List Item → Bool
  | [], [] => true
  | a :: as, b :: bs => a.same b && sameItems as bs
  | _, _ => false

end

mutual

theorem Expr.same_iff (a b : Expr) : a.same b = true ↔ a = b := by
  cases a with
  | expansion a => cases b <;> simp [Expr.same, Expansion.same_iff a]
  | _ => cases b <;> simp [Expr.same]

theorem Argument.same_iff (a b : Argument) : a.same b = true ↔ a = b := by
  cases a; cases b
  rename_i v p w q
  simp [Argument.same, Expr.same_iff v w]

theorem Property.same_iff (a b : Property) : a.same b = true ↔ a = b := by
  cases a; cases b
  rename_i n v l m w k
  simp [Property.same, Expr.same_iff n m, Expr.same_iff v w, and_assoc]

theorem ExtensionArg.same_iff (a b : ExtensionArg) : a.same b = true ↔ a = b := by
  cases a with
  | expr a => cases b <;> simp [ExtensionArg.same, Expr.same_iff a]
  | extension a => cases b <;> simp [ExtensionArg.same, Extension.same_iff a]

theorem Extension.same_iff (a b : Extension) : a.same b = true ↔ a = b := by
  cases a; cases b
  rename_i v as l w bs k
  simp [Extension.same, sameExtensionArgs_iff as bs, and_assoc]

theorem Item.same_iff (a b : Item) : a.same b = true ↔ a = b := by
  cases a with
  | property a => cases b <;> simp [Item.same, Property.same_iff a]
  | expansion a => cases b <;> simp [Item.same, Expansion.same_iff a]
  | extension a => cases b <;> simp [Item.same, Extension.same_iff a]

theorem Expansion.same_iff (a b : Expansion) : a.same b = true ↔ a = b := by
  cases a; cases b
  rename_i n t as is l m u bs js k
  simp [Expansion.same, Expr.same_iff t u, sameArguments_iff as bs, sameItems_iff is js, and_assoc]

theorem sameArguments_iff (as bs : List Argument) : sameArguments as bs = true ↔ as = bs := by
  cases as with
  | nil => cases bs <;> simp [sameArguments]
  | cons a as => cases bs <;> simp [sameArguments, Argument.same_iff a, sameArguments_iff as]

theorem sameExtensionArgs_iff (as bs : List ExtensionArg) :
    sameExtensionArgs as bs = true ↔ as = bs := by
  cases as with
  | nil => cases bs <;> simp [sameExtensionArgs]
  | cons a as =>
    cases bs <;> simp [sameExtensionArgs, ExtensionArg.same_iff a, sameExtensionArgs_iff as]

theorem sameItems_iff (as bs : List Item) : sameItems as bs = true ↔ as = bs := by
  cases as with
  | nil => cases bs <;> simp [sameItems]
  | cons a as => cases bs <;> simp [sameItems, Item.same_iff a, sameItems_iff as]

end

instance : DecidableEq Expr := fun a b => decidable_of_iff _ (Expr.same_iff a b)

instance : DecidableEq Argument := fun a b => decidable_of_iff _ (Argument.same_iff a b)

instance : DecidableEq Property := fun a b => decidable_of_iff _ (Property.same_iff a b)

instance : DecidableEq ExtensionArg := fun a b => decidable_of_iff _ (ExtensionArg.same_iff a b)

instance : DecidableEq Extension := fun a b => decidable_of_iff _ (Extension.same_iff a b)

instance : DecidableEq Item := fun a b => decidable_of_iff _ (Item.same_iff a b)

instance : DecidableEq Expansion := fun a b => decidable_of_iff _ (Expansion.same_iff a b)

deriving instance DecidableEq for Base, Template, Form

end Stencil
