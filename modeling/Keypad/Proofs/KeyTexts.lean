/-
The keys of a text.

A text of keys and white space has the keys of its characters, in order
(`ofText_eq_ok_iff`). Any other text fails at its first character that is
neither, whatever comes after that one (`ofText_eq_error_iff`).
-/
import Keypad.Key

namespace Keypad

/-! ## Characters -/

/-- Every digit character shows a digit. -/
theorem Digit.exists_toChar_eq {c : Char} (h : c.isDigit = true) : ∃ d : Digit, d.toChar = c := by
  rw [Char.isDigit, Bool.and_eq_true, decide_eq_true_eq, decide_eq_true_eq] at h
  have hge : '0'.toNat ≤ c.toNat := UInt32.le_iff_toNat_le.mp h.1
  have hle : c.toNat ≤ '9'.toNat := UInt32.le_iff_toNat_le.mp h.2
  have hvalue : c.toNat - '0'.toNat ≤ 9 := Nat.sub_le_of_le_add hle
  refine ⟨⟨c.toNat - '0'.toNat, hvalue⟩, ?_⟩
  rw [Digit.toChar, Nat.add_sub_cancel' hge, Char.ofNat_toNat]

theorem Digit.isBlank_toChar (d : Digit) : Text.isBlank d.toChar = false := by
  obtain ⟨n, h⟩ := d
  match n, h with
  | 0, _ | 1, _ | 2, _ | 3, _ | 4, _ | 5, _ | 6, _ | 7, _ | 8, _ | 9, _ => rfl

namespace Key

@[simp] theorem ofChar?_toChar (d : Digit) : ofChar? d.toChar = some (digit d) := by
  simp [ofChar?]

@[simp] theorem ofChar?_symbol (op : Operator) : ofChar? op.symbol = some (operator op) := by
  cases op <;> rfl

@[simp] theorem ofChar?_point : ofChar? '.' = some point := rfl

@[simp] theorem ofChar?_space : ofChar? ' ' = none := rfl

/-- White space is no key. -/
theorem ofChar?_of_isBlank {c : Char} (h : Text.isBlank c = true) : ofChar? c = none := by
  have hdigit : Digit.ofChar? c = none := by
    refine if_neg fun hc => ?_
    obtain ⟨d, rfl⟩ := Digit.exists_toChar_eq hc
    rw [d.isBlank_toChar] at h
    cases h
  have hop : Operator.ofChar? c = none := by
    rw [Option.eq_none_iff_forall_ne_some]
    rintro op hop
    rw [Operator.ofChar?_eq_some_iff] at hop
    subst hop
    revert h
    cases op <;> decide
  have hspecial : special? c = none := by
    unfold special?
    split <;> first | rfl | cases h
  simp [ofChar?, hdigit, hop, hspecial]

/-- A key or white space. -/
def IsKeyChar (c : Char) : Prop := Text.isBlank c = true ∨ ∃ key, ofChar? c = some key

theorem not_isKeyChar_iff {c : Char} : ¬ IsKeyChar c ↔ Text.isBlank c = false ∧ ofChar? c = none := by
  simp [IsKeyChar, Option.eq_none_iff_forall_ne_some]

/-! ## Texts -/

/-- Nothing but keys and white space. -/
def IsKeyText (cs : List Char) : Prop := ∀ c ∈ cs, IsKeyChar c

theorem isKeyText_append {cs ds : List Char} :
    IsKeyText (cs ++ ds) ↔ IsKeyText cs ∧ IsKeyText ds :=
  List.forall_mem_append

theorem ofCharsFrom_of_not_isKeyChar {position : Nat} {c : Char} {cs : List Char}
    (h : ¬ IsKeyChar c) : ofCharsFrom position (c :: cs) = .error ⟨c, position⟩ := by
  obtain ⟨hblank, hkey⟩ := not_isKeyChar_iff.mp h
  simp [ofCharsFrom, hblank, hkey]

/-- A key or white space goes before the keys of what follows it. -/
theorem ofCharsFrom_of_isKeyChar {position : Nat} {c : Char} {cs : List Char} (h : IsKeyChar c) :
    ofCharsFrom position (c :: cs) =
      (ofCharsFrom (position + 1) cs).map ((ofChar? c).toList ++ ·) := by
  rw [ofCharsFrom]
  rcases h with hblank | ⟨key, hkey⟩
  · rw [if_pos hblank, ofChar?_of_isBlank hblank]
    cases ofCharsFrom (position + 1) cs <;> rfl
  · have hblank : ¬ Text.isBlank c = true := fun h => by
      rw [ofChar?_of_isBlank h] at hkey
      cases hkey
    rw [if_neg hblank, hkey]
    rfl

theorem ofCharsFrom_eq_ok {cs : List Char} (h : IsKeyText cs) (position : Nat) :
    ofCharsFrom position cs = .ok (cs.filterMap ofChar?) := by
  induction cs generalizing position with
  | nil => rfl
  | cons c cs ih =>
    obtain ⟨hc, hcs⟩ := List.forall_mem_cons.mp h
    rw [ofCharsFrom_of_isKeyChar hc, ih hcs, Except.map, List.filterMap_cons]
    cases ofChar? c <;> rfl

theorem ofCharsFrom_eq_error {before : List Char} {c : Char} (h : IsKeyText before)
    (hc : ¬ IsKeyChar c) (position : Nat) (after : List Char) :
    ofCharsFrom position (before ++ c :: after) = .error ⟨c, position + before.length⟩ := by
  induction before generalizing position with
  | nil => exact ofCharsFrom_of_not_isKeyChar hc
  | cons b before ih =>
    obtain ⟨hb, hbefore⟩ := List.forall_mem_cons.mp h
    rw [List.cons_append, ofCharsFrom_of_isKeyChar hb, ih hbefore, List.length_cons, Except.map,
      Nat.add_assoc, Nat.add_comm 1]

/-- A text has nothing but keys and white space in it, or a first character
that is neither. -/
theorem isKeyText_or_exists (cs : List Char) : IsKeyText cs ∨
    ∃ before c after, cs = before ++ c :: after ∧ IsKeyText before ∧ ¬ IsKeyChar c := by
  induction cs with
  | nil => exact .inl (by simp [IsKeyText])
  | cons c cs ih =>
    by_cases hc : IsKeyChar c
    · rcases ih with hcs | ⟨before, c', after, rfl, hbefore, hc'⟩
      · exact .inl (List.forall_mem_cons.mpr ⟨hc, hcs⟩)
      · exact .inr ⟨c :: before, c', after, rfl, List.forall_mem_cons.mpr ⟨hc, hbefore⟩, hc'⟩
    · exact .inr ⟨[], c, cs, rfl, by simp [IsKeyText], hc⟩

/-- **A text has keys** if there is nothing but keys and white space in it, and
they are those of its characters, in order. -/
theorem ofText_eq_ok_iff {text : String} {keys : List Key} :
    ofText text = .ok keys ↔ IsKeyText text.toList ∧ text.toList.filterMap ofChar? = keys := by
  unfold ofText
  rcases isKeyText_or_exists text.toList with h | ⟨before, c, after, htext, hbefore, hc⟩
  · simp [ofCharsFrom_eq_ok h, h]
  · have hnot : ¬ IsKeyText (before ++ c :: after) := fun h => hc (h c (by simp))
    simp [htext, ofCharsFrom_eq_error hbefore hc, hnot]

/-- Texts put together have the keys of both. -/
theorem ofText_append {text more : String} {keys keys' : List Key} (h : ofText text = .ok keys)
    (hmore : ofText more = .ok keys') : ofText (text ++ more) = .ok (keys ++ keys') := by
  rw [ofText_eq_ok_iff] at h hmore ⊢
  rw [String.toList_append, isKeyText_append, List.filterMap_append, h.2, hmore.2]
  exact ⟨⟨h.1, hmore.1⟩, rfl⟩

/-- **A text fails** at its first character that is neither a key nor white
space, whatever comes after that one. -/
theorem ofText_eq_error_iff {text : String} {e : UnknownKey} :
    ofText text = .error e ↔ ∃ before after, text.toList = before ++ e.char :: after ∧
      IsKeyText before ∧ ¬ IsKeyChar e.char ∧ e.position = before.length := by
  unfold ofText
  constructor
  · intro he
    rcases isKeyText_or_exists text.toList with h | ⟨before, c, after, htext, hbefore, hc⟩
    · rw [ofCharsFrom_eq_ok h] at he
      cases he
    · rw [htext, ofCharsFrom_eq_error hbefore hc, Nat.zero_add] at he
      cases he
      exact ⟨before, after, htext, hbefore, hc, rfl⟩
  · rintro ⟨before, after, htext, hbefore, hc, hposition⟩
    rw [htext, ofCharsFrom_eq_error hbefore hc, Nat.zero_add, ← hposition]

end Key

end Keypad
