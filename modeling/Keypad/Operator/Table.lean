/-
Operator tables: which operators are defined, and how each one binds.
-/
import Keypad.Operator.Fixity

namespace Keypad

/-- A table gives the fixity of every operator it defines. -/
structure OperatorTable where
  fixity? : Operator → Option Fixity

namespace OperatorTable

def empty : OperatorTable := ⟨fun _ => none⟩

def get? (t : OperatorTable) (op : Operator) : Option Binding :=
  (t.fixity? op).map fun f => ⟨op, f⟩

/-- Defines an operator, in place of an earlier definition of it. -/
def insert (t : OperatorTable) (b : Binding) : OperatorTable :=
  ⟨fun op => if op = b.operator then some b.fixity else t.fixity? op⟩

/-- The table of a list of definitions. Of two for one operator the later
counts. -/
def ofList (bs : List Binding) : OperatorTable := bs.foldl insert empty

/-- The definitions of a table, in the order of the keypad. -/
def toList (t : OperatorTable) : List Binding := Operator.all.filterMap t.get?

def size (t : OperatorTable) : Nat := t.toList.length

def isEmpty (t : OperatorTable) : Bool := t.toList.isEmpty

/-! ## What a table defines -/

@[simp] theorem fixity?_empty (op : Operator) : empty.fixity? op = none := rfl

@[simp] theorem fixity?_insert_self (t : OperatorTable) (b : Binding) :
    (t.insert b).fixity? b.operator = some b.fixity := by
  simp [insert]

theorem fixity?_insert_of_ne (t : OperatorTable) (b : Binding) {op : Operator}
    (h : op ≠ b.operator) : (t.insert b).fixity? op = t.fixity? op := by
  simp [insert, h]

/-- The last definition of an operator counts. -/
@[simp] theorem get?_insert_self (t : OperatorTable) (b : Binding) :
    (t.insert b).get? b.operator = some b := by
  simp [get?]

theorem get?_insert_of_ne (t : OperatorTable) (b : Binding) {op : Operator}
    (h : op ≠ b.operator) : (t.insert b).get? op = t.get? op := by
  simp [get?, fixity?_insert_of_ne t b h]

theorem operator_of_get? {t : OperatorTable} {op : Operator} {b : Binding}
    (h : t.get? op = some b) : b.operator = op := by
  obtain ⟨f, -, rfl⟩ := Option.map_eq_some_iff.mp h
  rfl

@[simp] theorem ofList_append_singleton (bs : List Binding) (b : Binding) :
    ofList (bs ++ [b]) = (ofList bs).insert b := by
  simp [ofList]

/-! ## The common operators -/

/-- The usual arithmetic: powers bind tightest and group to the right, then
come products and then sums, which group to the left. -/
def common : OperatorTable :=
  ofList [
    ⟨.power, .right, 4⟩,
    ⟨.times, .left, 3⟩,
    ⟨.divide, .left, 3⟩,
    ⟨.plus, .left, 2⟩,
    ⟨.minus, .left, 2⟩]

theorem isSome_fixity?_common (op : Operator) : (common.fixity? op).isSome := by
  cases op <;> rfl

end OperatorTable

end Keypad
