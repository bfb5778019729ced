/-
Texts of keys put together and spaced out.

Positions count the characters of the whole text. So what stands in front of a
text moves its failures to the right, by its number of characters if it is a
text of keys itself, and so does white space inserted anywhere, by as much of
it as comes before the reported character.

* `ofText_append_eq`: the keys or the failure of two texts put together.
* `ofText_pad`: white space inserted into a text.
* `ofText_spacing`: what a text of keys is, and both of these.
-/
import Mathlib.Data.List.Induction
import Keypad.Proofs.KeyTexts

namespace Keypad

namespace Text

/-- White space to be inserted into a text: `blanks i` goes in front of its
character number `i`, counted from zero, or to its end if `i` is its length. -/
structure Padding where
  blanks : Nat → List Char
  isBlank_of_mem : ∀ i, ∀ c ∈ blanks i, isBlank c = true

namespace Padding

/-- Inserts white space into characters, the first of which has the number
`i`. -/
def padFrom (p : Padding) (i : Nat) : List Char → List Char
  | [] => p.blanks i
  | c :: cs => p.blanks i ++ c :: p.padFrom (i + 1) cs

def pad (p : Padding) (text : String) : String := String.ofList (p.padFrom 0 text.toList)

/-- The number of characters inserted in front of the character number `i`,
right there or further to the left. -/
def inserted (p : Padding) : Nat → Nat
  | 0 => (p.blanks 0).length
  | i + 1 => p.inserted i + (p.blanks (i + 1)).length

variable (p : Padding)

@[simp] theorem toList_pad (text : String) : (p.pad text).toList = p.padFrom 0 text.toList := by
  simp [pad]

theorem padFrom_append_cons (i : Nat) (cs : List Char) (d : Char) (ds : List Char) :
    p.padFrom i (cs ++ d :: ds) = p.padFrom i cs ++ d :: p.padFrom (i + cs.length + 1) ds := by
  induction cs generalizing i with
  | nil => rfl
  | cons c cs ih =>
    have hi : i + (cs.length + 1) + 1 = i + 1 + cs.length + 1 := by omega
    simp [padFrom, ih, hi]

theorem length_padFrom (cs : List Char) :
    (p.padFrom 0 cs).length = cs.length + p.inserted cs.length := by
  induction cs using List.reverseRecOn with
  | nil => simp [padFrom, inserted]
  | append_singleton cs c ih =>
    rw [padFrom_append_cons, padFrom, List.length_append, ih, List.length_cons, List.length_append,
      List.length_singleton, inserted, Nat.zero_add]
    omega

end Padding

end Text

namespace Key

open Text (Padding)

/-! ## Texts put together -/

theorem ofText_append_of_error {text : String} {e : UnknownKey} (h : ofText text = .error e)
    (more : String) : ofText (text ++ more) = .error e := by
  obtain ⟨before, after, htext, hbefore, hchar, hposition⟩ := ofText_eq_error_iff.mp h
  refine ofText_eq_error_iff.mpr ⟨before, after ++ more.toList, ?_, hbefore, hchar, hposition⟩
  rw [String.toList_append, htext, List.append_assoc, List.cons_append]

theorem ofText_append_error {text more : String} {keys : List Key} {e : UnknownKey}
    (h : ofText text = .ok keys) (hmore : ofText more = .error e) :
    ofText (text ++ more) = .error ⟨e.char, text.length + e.position⟩ := by
  obtain ⟨before, after, htext, hbefore, hchar, hposition⟩ := ofText_eq_error_iff.mp hmore
  refine ofText_eq_error_iff.mpr ⟨text.toList ++ before, after, ?_, ?_, hchar, ?_⟩
  · rw [String.toList_append, htext, List.append_assoc]
  · exact isKeyText_append.mpr ⟨(ofText_eq_ok_iff.mp h).1, hbefore⟩
  · rw [List.length_append, String.length_toList, hposition]

/-- **Texts put together** have the keys of both. The first of them that fails
makes them fail, and its position counts from the start of both. -/
theorem ofText_append_eq (text more : String) :
    ofText (text ++ more) =
      match ofText text, ofText more with
      | .error e, _ => .error e
      | .ok _, .error e => .error ⟨e.char, text.length + e.position⟩
      | .ok keys, .ok keys' => .ok (keys ++ keys') := by
  cases h : ofText text with
  | error e => exact ofText_append_of_error h more
  | ok keys =>
    cases hmore : ofText more with
    | error e => exact ofText_append_error h hmore
    | ok keys' => exact ofText_append h hmore

/-- The first text has three characters in four bytes. -/
example : ofText ("1\u00a0+" ++ "2é(") = .error ⟨'é', 3 + 1⟩ := by decide

/-! ## White space -/

theorem isKeyText_blanks (p : Padding) (i : Nat) : IsKeyText (p.blanks i) := by
  intro c hc
  exact .inl (p.isBlank_of_mem i c hc)

theorem filterMap_blanks (p : Padding) (i : Nat) : (p.blanks i).filterMap ofChar? = [] := by
  rw [List.filterMap_eq_nil_iff]
  intro c hc
  exact ofChar?_of_isBlank (p.isBlank_of_mem i c hc)

theorem isKeyText_padFrom (p : Padding) {cs : List Char} (h : IsKeyText cs) (i : Nat) :
    IsKeyText (p.padFrom i cs) := by
  induction cs generalizing i with
  | nil => exact isKeyText_blanks p i
  | cons c cs ih =>
    obtain ⟨hc, hcs⟩ := List.forall_mem_cons.mp h
    exact isKeyText_append.mpr ⟨isKeyText_blanks p i, List.forall_mem_cons.mpr ⟨hc, ih hcs _⟩⟩

theorem filterMap_padFrom (p : Padding) (cs : List Char) (i : Nat) :
    (p.padFrom i cs).filterMap ofChar? = cs.filterMap ofChar? := by
  induction cs generalizing i with
  | nil => exact filterMap_blanks p i
  | cons c cs ih =>
    rw [Padding.padFrom, List.filterMap_append, filterMap_blanks, List.nil_append,
      List.filterMap_cons, List.filterMap_cons, ih]

/-- **White space inserted** into a text changes none of its keys. A failure
moves by what is inserted before the character it reports. -/
theorem ofText_pad (p : Padding) (text : String) :
    ofText (p.pad text) =
      (ofText text).mapError fun e => ⟨e.char, e.position + p.inserted e.position⟩ := by
  cases h : ofText text with
  | ok keys =>
    obtain ⟨hkeys, rfl⟩ := ofText_eq_ok_iff.mp h
    refine ofText_eq_ok_iff.mpr ⟨?_, ?_⟩
    · rw [p.toList_pad]
      exact isKeyText_padFrom p hkeys 0
    · rw [p.toList_pad, filterMap_padFrom]
  | error e =>
    obtain ⟨before, after, htext, hbefore, hchar, hposition⟩ := ofText_eq_error_iff.mp h
    refine ofText_eq_error_iff.mpr ⟨p.padFrom 0 before, p.padFrom (before.length + 1) after, ?_,
      isKeyText_padFrom p hbefore 0, hchar, ?_⟩
    · rw [p.toList_pad, htext, p.padFrom_append_cons, Nat.zero_add]
    · rw [p.length_padFrom, ← hposition]

/-! ## What a text of keys is -/

theorem isKeyText_iff {cs : List Char} :
    IsKeyText cs ↔ ∀ c ∈ cs, Text.isBlank c = false → (ofChar? c).isSome := by
  refine forall₂_congr fun c _ => ?_
  rw [IsKeyChar, Option.isSome_iff_exists]
  cases Text.isBlank c <;> simp

/-- The characters of a text of keys that are not white space have its keys. -/
theorem map_ofChar?_filter {cs : List Char} (h : IsKeyText cs) :
    (cs.filter fun c => !Text.isBlank c).map ofChar? = (cs.filterMap ofChar?).map some := by
  induction cs with
  | nil => rfl
  | cons c cs ih =>
    obtain ⟨hc, hcs⟩ := List.forall_mem_cons.mp h
    by_cases hblank : Text.isBlank c = true
    · simp [hblank, ofChar?_of_isBlank hblank, ih hcs]
    · obtain ⟨key, hkey⟩ := hc.resolve_left hblank
      simp [hblank, hkey, ih hcs]

/-- **Spacing of keys.** A text has keys exactly if every character of it that
is not white space is one of a key, and they are the keys of these characters,
in order. Otherwise its first character that is neither is reported, with the
number of characters before it. Two texts put together have the keys of both,
or else the failure of the first one, or that of the second one moved by the
number of characters of the first. White space inserted anywhere changes no
keys, and moves a failure by what is inserted before the character reported. -/
theorem ofText_spacing (text more : String) (p : Padding) :
    ((∃ keys, ofText text = .ok keys) ↔
      ∀ c ∈ text.toList, Text.isBlank c = false → (ofChar? c).isSome) ∧
    (∀ keys, ofText text = .ok keys →
      (text.toList.filter fun c => !Text.isBlank c).map ofChar? = keys.map some) ∧
    (∀ e, ofText text = .error e ↔ ∃ before after, text.toList = before ++ e.char :: after ∧
      (∀ c ∈ before, Text.isBlank c = false → (ofChar? c).isSome) ∧
      Text.isBlank e.char = false ∧ ofChar? e.char = none ∧ e.position = before.length) ∧
    (ofText (text ++ more) =
      match ofText text, ofText more with
      | .error e, _ => .error e
      | .ok _, .error e => .error ⟨e.char, text.length + e.position⟩
      | .ok keys, .ok keys' => .ok (keys ++ keys')) ∧
    ofText (p.pad text) =
      (ofText text).mapError fun e => ⟨e.char, e.position + p.inserted e.position⟩ := by
  refine ⟨?_, fun keys h => ?_, fun e => ?_, ofText_append_eq text more, ofText_pad p text⟩
  · simp only [ofText_eq_ok_iff, ← isKeyText_iff, exists_and_left, exists_eq', and_true]
  · obtain ⟨hkeys, rfl⟩ := ofText_eq_ok_iff.mp h
    exact map_ofChar?_filter hkeys
  · simp only [ofText_eq_error_iff, ← isKeyText_iff, not_isKeyChar_iff, and_assoc]

end Key

end Keypad
