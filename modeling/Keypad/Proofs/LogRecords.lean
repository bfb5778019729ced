/-
The records of log events, as text.

A record begins with its level, so which of them a level lets through can be
told from the records alone. It takes one line unless a text that it quotes has
a line break in it.

* `prefix_record`: the first word of a record.
* `records_upTo`: a level selects among the records of all events.
* `Event.oneline_record`: which records take one line.
-/
import Keypad.Proofs.Characters

namespace Keypad

namespace Log

/-! ## Levels -/

/-- The word for a level at the beginning of a record. -/
def Level.word (l : Level) : List Char := l.name.toList.map Char.toUpper

/-- A record begins with its level. -/
theorem prefix_record (e : Event) : e.level.word ++ [' '] <+: e.record.toList := by
  -- The texts of a record are joined from the left, and the first is a fixed one.
  have hfixed : ∀ {l : Level} (rest : List Char),
      l.word ++ [' '] <+: (String.ofList (l.word ++ ' ' :: rest)).toList := fun {l} rest => by
    rw [String.toList_ofList]
    exact ⟨rest, by simp⟩
  have hone : ∀ {l : Level} {s : String}, l.word ++ [' '] <+: s.toList →
      ∀ t, l.word ++ [' '] <+: (s ++ t).toList := fun h t => by
    rw [String.toList_append]
    exact h.trans (List.prefix_append _ _)
  have hthree : ∀ {l : Level} {s : String}, l.word ++ [' '] <+: s.toList →
      ∀ t u v, l.word ++ [' '] <+: (s ++ t ++ u ++ v).toList := fun h t u v =>
    hone (hone (hone h t) u) v
  cases e with
  | ignored refusal =>
    cases refusal with
    | pointAfterOperator => exact hfixed (l := .trace) _
    | secondPoint literal => exact hone (hfixed (l := .trace) _) _
    | missingLeftOperand op => exact hone (hfixed (l := .trace) _) _
  | evaluated order result => exact hthree (hfixed (l := .debug) _) _ _ _
  | solved expression value => exact hthree (hfixed (l := .debug) _) _ _ _
  | unsolved expression error => exact hthree (hfixed (l := .info) _) _ _ _

/-- The level that a record gives. -/
def levelOf? (record : String) : Option Level :=
  Level.all.find? fun l => l.word == record.toList.takeWhile (· ≠ ' ')

theorem levelOf?_record (e : Event) : levelOf? e.record = some e.level := by
  obtain ⟨rest, hrest⟩ := prefix_record e
  rw [levelOf?, ← hrest, List.append_assoc]
  cases e.level <;> rfl

/-! ## Filters -/

/-- Whether a record is of a level or of a more severe one. -/
def isWithin (l : Level) (record : String) : Bool := (levelOf? record).any (·.rank ≤ l.rank)

theorem isWithin_record (l : Level) (e : Event) : isWithin l e.record = upTo l e := by
  rw [isWithin, levelOf?_record]
  rfl

theorem upTo_trace (e : Event) : upTo .trace e = true := by
  rw [upTo]
  cases e.level <;> rfl

/-- Every event has a record at the trace level. -/
theorem records_trace (events : List Event) :
    records (upTo .trace) events = events.map Event.record := by
  rw [records, List.filter_eq_self.mpr fun e _ => upTo_trace e]

@[simp] theorem records_off (events : List Event) : records off events = [] := by
  rw [records, List.filter_eq_nil_iff.mpr (by simp [off]), List.map_nil]

/-- **A level** selects records by the levels that they give. -/
theorem records_upTo (l : Level) (events : List Event) :
    records (upTo l) events = (records (upTo .trace) events).filter (isWithin l) := by
  rw [records_trace, List.filter_map, records]
  congr 1
  exact List.filter_congr fun e _ => (isWithin_record l e).symm

/-- No filter lets through what has no record at the trace level. -/
theorem records_sublist_trace (filter : Filter) (events : List Event) :
    (records filter events).Sublist (records (upTo .trace) events) := by
  rw [records_trace, records]
  exact List.filter_sublist.map _

@[simp] theorem records_append (filter : Filter) (events more : List Event) :
    records filter (events ++ more) = records filter events ++ records filter more := by
  rw [records, List.filter_append, List.map_append, records, records]

end Log

/-! ## Line breaks -/

/-- A text that takes one line. -/
def Oneline (text : String) : Prop := ∀ c ∈ text.toList, c ≠ '\n' ∧ c ≠ '\r'

theorem ne_break_of_isBlank {c : Char} (h : Text.isBlank c = false) : c ≠ '\n' ∧ c ≠ '\r' := by
  constructor <;> rintro rfl <;> cases h

namespace Oneline

/-- Fixed texts are checked as the lists of characters that they stand for. -/
theorem ofList {cs : List Char} (h : (cs.all fun c => c ≠ '\n' ∧ c ≠ '\r') = true) :
    Oneline (String.ofList cs) := by
  intro c hc
  rw [String.toList_ofList] at hc
  simpa using List.all_eq_true.mp h c hc

theorem append {s t : String} (hs : Oneline s) (ht : Oneline t) : Oneline (s ++ t) := by
  rw [Oneline, String.toList_append]
  exact List.forall_mem_append.mpr ⟨hs, ht⟩

/-- What is quoted stands between two fixed texts. -/
theorem quote {s t u : String} (hs : Oneline s) (ht : Oneline t) (hu : Oneline u) :
    Oneline (s ++ t ++ u) :=
  (hs.append ht).append hu

theorem of_blankless {s : String} (h : Blankless s.toList) : Oneline s :=
  fun c hc => ne_break_of_isBlank (h c hc)

theorem nat (n : Nat) : Oneline (toString n) := .of_blankless (blankless_toString n)

end Oneline

theorem Operator.oneline_text (op : Operator) : Oneline op.text :=
  .of_blankless (by simpa [text, Blankless] using op.isBlank_symbol)

theorem Operator.oneline_name (op : Operator) : Oneline op.name := by
  cases op <;> exact .ofList rfl

theorem forall_mem_intercalate {α : Type} {P : α → Prop} {sep : List α} (hsep : ∀ x ∈ sep, P x)
    {xss : List (List α)} (h : ∀ xs ∈ xss, ∀ x ∈ xs, P x) : ∀ x ∈ sep.intercalate xss, P x := by
  induction xss with
  | nil => simp
  | cons xs xss ih =>
    obtain ⟨hxs, hxss⟩ := List.forall_mem_cons.mp h
    cases xss with
    | nil => simpa using hxs
    | cons ys yss =>
      rw [List.intercalate_cons_cons]
      exact List.forall_mem_append.mpr ⟨List.forall_mem_append.mpr ⟨hxs, hsep⟩, ih hxss⟩

theorem oneline_spacedText {ts : List Token} (h : ∀ t ∈ ts, Oneline t.text) :
    Oneline (spacedText ts) := by
  rw [Oneline, spacedText, String.toList_ofList]
  have hspace : ∀ c ∈ [' '], c ≠ '\n' ∧ c ≠ '\r' := by simp
  refine forall_mem_intercalate hspace fun cs hcs => ?_
  obtain ⟨t, ht, rfl⟩ := List.mem_map.mp hcs
  exact h t ht

theorem ReductionError.oneline_message (e : ReductionError) : Oneline e.message := by
  cases e with
  | missingOperands op shortage =>
    exact .quote (.quote (.quote (.ofList rfl) op.oneline_text (.ofList rfl))
      (.nat shortage.expected) (.ofList rfl)) (.nat shortage.found) (.ofList rfl)
  | leftover count => exact .quote (.ofList rfl) (.nat count) (.ofList rfl)
  | empty => exact .ofList rfl

theorem EvaluationError.oneline_message (e : EvaluationError) : Oneline e.message := by
  cases e with
  | unknownOperator e => exact .quote (.ofList rfl) e.operator.oneline_text (.ofList rfl)
  | irreducible e => exact e.oneline_message

namespace Log

theorem oneline_resultText (result : Except ReductionError Float) :
    Oneline (resultText result) := by
  rcases result with (⟨op, shortage⟩ | count | _) | x
  · exact .quote (.quote (.quote (.ofList rfl) op.oneline_name (.ofList rfl))
      (.nat shortage.expected) (.ofList rfl)) (.nat shortage.found) (.ofList rfl)
  · exact .quote (.ofList rfl) (.nat count) (.ofList rfl)
  · exact .ofList rfl
  · exact .quote (.ofList rfl) (.of_blankless (NumberText.blankless_log x)) (.ofList rfl)

/-- The texts that the record of an event quotes take one line each. -/
def Event.QuotesOneline : Event → Prop
  | ignored (.secondPoint literal) => Oneline literal
  | ignored _ => True
  | evaluated order _ => ∀ t ∈ order, Oneline t.text
  | solved expression _ => Oneline expression
  | unsolved expression _ => Oneline expression

/-- **A record takes one line** if what it quotes does. -/
theorem Event.oneline_record {e : Event} (h : e.QuotesOneline) : Oneline e.record := by
  cases e with
  | ignored refusal =>
    cases refusal with
    | pointAfterOperator => exact .ofList rfl
    | secondPoint literal => exact Oneline.append (.ofList rfl) h
    | missingLeftOperand op => exact Oneline.append (.ofList rfl) op.oneline_text
  | evaluated order result =>
    exact .append (.quote (.ofList rfl) (oneline_spacedText h) (.ofList rfl))
      (oneline_resultText result)
  | solved expression value =>
    exact .append (.quote (.ofList rfl) h (.ofList rfl))
      (.of_blankless (NumberText.blankless_log value))
  | unsolved expression error =>
    exact .append (.quote (.ofList rfl) h (.ofList rfl)) error.oneline_message

end Log

end Keypad
