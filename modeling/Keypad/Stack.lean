/-
Stacks: the last element pushed is the first one popped.
-/

namespace Keypad

/-- A stack, as the list of its elements from the top down. -/
structure Stack (α : Type) where
  topFirst : List α
  deriving Repr, DecidableEq

/-- Why a stack could not give up elements: how many were needed, and how
many there were. -/
structure Shortage where
  expected : Nat
  found : Nat
  deriving Repr, DecidableEq

def Shortage.message (s : Shortage) : String :=
  s!"Not enough stack elements, expected at least {s.expected} but found {s.found}."

namespace Stack

variable {α : Type}

def empty : Stack α := ⟨[]⟩

/-- The stack of a list of elements from the bottom up. -/
def ofList (xs : List α) : Stack α := ⟨xs.reverse⟩

/-- The elements from the bottom up. -/
def toList (s : Stack α) : List α := s.topFirst.reverse

def size (s : Stack α) : Nat := s.topFirst.length

def isEmpty (s : Stack α) : Bool := s.topFirst.isEmpty

def push (s : Stack α) (x : α) : Stack α := ⟨x :: s.topFirst⟩

/-- Requires at least `expected` elements. -/
def check (s : Stack α) (expected : Nat) : Except Shortage Unit :=
  if s.size < expected then .error ⟨expected, s.size⟩ else .ok ()

def pop (s : Stack α) : Except Shortage (α × Stack α) :=
  match s.topFirst with
  | [] => .error ⟨1, 0⟩
  | x :: rest => .ok (x, ⟨rest⟩)

/-- Takes the two top elements off, as a pair of the one below and the one on
top. -/
def popPair (s : Stack α) : Except Shortage ((α × α) × Stack α) :=
  match s.topFirst with
  | top :: below :: rest => .ok ((below, top), ⟨rest⟩)
  | short => .error ⟨2, short.length⟩

/-- The only element, or else the number of elements. -/
def single (s : Stack α) : Except Nat α :=
  match s.topFirst with
  | [x] => .ok x
  | others => .error others.length

/-! ## The elements from the bottom up -/

@[simp] theorem toList_empty : (empty : Stack α).toList = [] := rfl

@[simp] theorem toList_ofList (xs : List α) : (ofList xs).toList = xs := by
  simp [ofList, toList]

@[simp] theorem ofList_toList (s : Stack α) : ofList s.toList = s := by
  simp [ofList, toList]

@[simp] theorem toList_push (s : Stack α) (x : α) : (s.push x).toList = s.toList ++ [x] := by
  simp [push, toList]

@[simp] theorem size_ofList (xs : List α) : (ofList xs).size = xs.length := by
  simp [ofList, size]

@[simp] theorem pop_push (s : Stack α) (x : α) : (s.push x).pop = .ok (x, s) := rfl

@[simp] theorem popPair_push_push (s : Stack α) (x y : α) :
    ((s.push x).push y).popPair = .ok ((x, y), s) := rfl

/-- Two elements can be popped exactly if there are two. -/
theorem popPair_eq_error_iff {s : Stack α} {e : Shortage} :
    s.popPair = .error e ↔ s.size < 2 ∧ e = ⟨2, s.size⟩ := by
  obtain ⟨xs⟩ := s
  match xs with
  | [] | [_] => simp [popPair, size, eq_comm]
  | _ :: _ :: rest =>
    simp only [popPair, size, List.length_cons, reduceCtorEq, false_iff, not_and]
    omega

end Stack

end Keypad
