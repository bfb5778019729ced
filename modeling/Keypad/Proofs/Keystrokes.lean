/-
What keys can have typed.

Keys only ever extend an entry at its end, and solving puts a text in its
place that no key has typed. So literals and operators take turns whatever is
pressed, every literal but the first is digits with at most one point, and
the first one is that too or begins with such a text (`Typed`).

* `induction_pressAll`: what the start has and every key keeps holds after any
  keys.
* `grown_press_of`: one key keeps the form of an entry.
* `typed_pressAll`: the tokens after any keys, as a list.
-/
import Keypad.Calculator
import Keypad.Proofs.Literals

namespace Keypad

/-! ## Runs of keys -/

/-- **Induction over keys.** What holds of a calculator and the outcomes so
far, and is kept by every key, holds after any keys. -/
theorem Calculator.induction_pressAll {I : Calculator → List Outcome → Prop}
    (step : ∀ c past key, I c past →
      I (c.press key).calculator (past ++ (c.press key).outcome?.toList)) :
    ∀ {c : Calculator} {past : List Outcome} (keys : List Key), I c past →
      I (c.pressAll keys).calculator (past ++ (c.pressAll keys).outcomes)
  | _, _, [], h => by simpa using h
  | c, past, key :: keys, h => by
    have := induction_pressAll step keys (step c past key h)
    rwa [List.append_assoc] at this

/-! ## Literals -/

/-- A literal as it is typed: digits, and then perhaps a point and further
digits. -/
def IsLiteral (cs : List Char) : Prop :=
  ∃ ds, ds ≠ [] ∧ Digits ds ∧ (cs = ds ∨ ∃ fs, Digits fs ∧ cs = ds ++ '.' :: fs)

/-- What typing can add to a text: digits, and if the text has no point
perhaps a point and further digits. -/
def IsExtension (base cs : List Char) : Prop :=
  Digits cs ∨ '.' ∉ base ∧ ∃ ds fs, Digits ds ∧ Digits fs ∧ cs = ds ++ '.' :: fs

theorem Digit.isDigit_toChar (d : Digit) : d.toChar.isDigit = true := by
  have h := Digit.ofChar?_toChar d
  rw [Digit.ofChar?] at h
  split at h
  · assumption
  · cases h

theorem Digits.toChar (d : Digit) : Digits [d.toChar] := by
  intro c hc
  rw [List.mem_singleton.mp hc]
  exact d.isDigit_toChar

namespace IsLiteral

variable {cs : List Char}

theorem of_digits (h : Digits cs) (hne : cs ≠ []) : IsLiteral cs := ⟨cs, hne, h, .inl rfl⟩

theorem ne_nil (h : IsLiteral cs) : cs ≠ [] := by
  obtain ⟨ds, hne, -, rfl | ⟨fs, -, rfl⟩⟩ := h
  · exact hne
  · simp

theorem digit (h : IsLiteral cs) (d : Digit) : IsLiteral (cs ++ [d.toChar]) := by
  obtain ⟨ds, hne, hds, rfl | ⟨fs, hfs, rfl⟩⟩ := h
  · exact of_digits (hds.append (.toChar d)) (by simp)
  · exact ⟨ds, hne, hds, .inr ⟨fs ++ [d.toChar], hfs.append (.toChar d), by simp⟩⟩

theorem point (h : IsLiteral cs) (hp : '.' ∉ cs) : IsLiteral (cs ++ ['.']) := by
  obtain ⟨ds, hne, hds, rfl | ⟨fs, -, rfl⟩⟩ := h
  · exact ⟨cs, hne, hds, .inr ⟨[], .nil, rfl⟩⟩
  · simp at hp

end IsLiteral

namespace IsExtension

variable {base cs : List Char}

theorem digit (h : IsExtension base cs) (d : Digit) : IsExtension base (cs ++ [d.toChar]) := by
  rcases h with hcs | ⟨hbase, ds, fs, hds, hfs, rfl⟩
  · exact .inl (hcs.append (.toChar d))
  · exact .inr ⟨hbase, ds, fs ++ [d.toChar], hds, hfs.append (.toChar d), by simp⟩

theorem point (h : IsExtension base cs) (hp : '.' ∉ base ++ cs) :
    IsExtension base (cs ++ ['.']) := by
  rw [List.mem_append, not_or] at hp
  rcases h with hcs | ⟨-, ds, fs, -, -, rfl⟩
  · exact .inr ⟨hp.1, cs, [], hcs, .nil, rfl⟩
  · simp at hp

end IsExtension

/-! ## The first literal -/

/-- A text that solving can have put in the place of an expression: a value
as shown, or the error marker after a failure. -/
def IsResult (settings : Settings) (outcomes : List Outcome) (base : String) : Prop :=
  (∃ x, .ok x ∈ outcomes ∧ base = NumberText.shown x) ∨
    ∃ e, .error e ∈ outcomes ∧ base = settings.errorMarker

theorem IsResult.mono {settings : Settings} {outcomes : List Outcome} {base : String}
    (h : IsResult settings outcomes base) (more : List Outcome) :
    IsResult settings (outcomes ++ more) base := by
  rcases h with ⟨x, hx, rfl⟩ | ⟨e, he, rfl⟩
  · exact .inl ⟨x, List.mem_append_left _ hx, rfl⟩
  · exact .inr ⟨e, List.mem_append_left _ he, rfl⟩

theorem IsResult.outcomeText (c : Calculator) (past : List Outcome) (outcome : Outcome) :
    IsResult c.settings (past ++ [outcome]) (c.outcomeText outcome) := by
  cases outcome with
  | ok x => exact .inl ⟨x, by simp, rfl⟩
  | error e => exact .inr ⟨e, by simp, rfl⟩

/-- The form of the first literal: nothing, a literal as it is typed, or one
of the texts `Result` allows with what was typed after it. -/
def FirstText (Result : String → Prop) (text : String) : Prop :=
  text = "" ∨ IsLiteral text.toList ∨
    ∃ base cs, Result base ∧ base ≠ "" ∧ IsExtension base.toList cs ∧
      text.toList = base.toList ++ cs

namespace FirstText

variable {Result : String → Prop} {text : String}

theorem of_result (h : Result text) : FirstText Result text := by
  by_cases hempty : text = ""
  · exact .inl hempty
  · exact .inr (.inr ⟨text, [], h, hempty, .inl .nil, by simp⟩)

theorem digit (h : FirstText Result text) (d : Digit) : FirstText Result (text.push d.toChar) := by
  right
  rw [String.toList_push]
  rcases h with rfl | hlit | ⟨base, cs, hres, hne, hext, htext⟩
  · exact .inl (.of_digits (Digits.nil.append (.toChar d)) (by simp))
  · exact .inl (hlit.digit d)
  · exact .inr ⟨base, cs ++ [d.toChar], hres, hne, hext.digit d, by rw [htext, List.append_assoc]⟩

theorem point (h : FirstText Result text) (hp : '.' ∉ text.toList) :
    FirstText Result (if text = "" then "0." else text.push '.') := by
  right
  split
  · exact .inl ⟨['0'], by simp, by simp [Digits], .inr ⟨[], .nil, rfl⟩⟩
  · next hne =>
    rw [String.toList_push]
    rcases h with rfl | hlit | ⟨base, cs, hres, hbase, hext, htext⟩
    · exact absurd rfl hne
    · exact .inl (hlit.point hp)
    · rw [htext] at hp ⊢
      exact .inr ⟨base, cs ++ ['.'], hres, hbase, hext.point hp, by rw [List.append_assoc]⟩

theorem mono {Result' : String → Prop} (hres : ∀ base, Result base → Result' base)
    (h : FirstText Result text) : FirstText Result' text := by
  rcases h with h | h | ⟨base, cs, h, hne, hext, htext⟩
  · exact .inl h
  · exact .inr (.inl h)
  · exact .inr (.inr ⟨base, cs, hres base h, hne, hext, htext⟩)

end FirstText

/-! ## Entries -/

/-- How an entry grows, by its earlier tokens, the latest first, and its last
one: from a first literal of the form `First`, by an operator after a literal
that is not empty and by a literal after an operator. -/
inductive Grown (First : String → Prop) : List Token → Token → Prop
  | first {text : String} : First text → Grown First [] (.number text)
  | operator {earlier : List Token} {text : String} {op : Operator} :
      Grown First earlier (.number text) → text ≠ "" →
      Grown First (.number text :: earlier) (.operator op)
  | literal {earlier : List Token} {op : Operator} {text : String} :
      Grown First earlier (.operator op) → IsLiteral text.toList →
      Grown First (.operator op :: earlier) (.number text)

theorem Grown.mono {First First' : String → Prop} (hfirst : ∀ text, First text → First' text)
    {earlier : List Token} {last : Token} (h : Grown First earlier last) :
    Grown First' earlier last := by
  induction h with
  | first h => exact .first (hfirst _ h)
  | operator _ hne ih => exact .operator ih hne
  | literal _ hlit ih => exact .literal ih hlit

/-- An entry has the form that keys give it, with results that `Result`
allows. -/
def Entry.GrownFrom (Result : String → Prop) (e : Entry) : Prop :=
  Grown (FirstText Result) e.earlier e.last

namespace Entry.GrownFrom

variable {Result : String → Prop} {e : Entry}

theorem fresh : GrownFrom Result .fresh := .first (.inl rfl)

theorem ofNumber {text : String} (h : Result text) : GrownFrom Result (.ofNumber text) :=
  .first (.of_result h)

theorem appendDigit (h : GrownFrom Result e) (d : Digit) : GrownFrom Result (e.appendDigit d) := by
  obtain ⟨earlier, last⟩ := e
  cases h with
  | first hfirst => exact .first (hfirst.digit d)
  | operator hprev hne =>
    refine .literal (.operator hprev hne) ?_
    simpa using IsLiteral.of_digits (.toChar d) (by simp)
  | literal hprev hlit =>
    refine .literal hprev ?_
    rw [String.toList_push]
    exact hlit.digit d

theorem appendPoint (h : GrownFrom Result e) {e' : Entry} (he : e.appendPoint = .ok e') :
    GrownFrom Result e' := by
  obtain ⟨earlier, last⟩ := e
  cases h with
  | operator hprev hne => cases he
  | first hfirst =>
    simp only [Entry.appendPoint] at he
    split at he
    · cases he
    · next hp =>
      cases he
      exact .first (hfirst.point hp)
  | literal hprev hlit =>
    simp only [Entry.appendPoint] at he
    split at he
    · cases he
    · next text hp =>
      cases he
      have hne : text ≠ "" := by
        rintro rfl
        exact hlit.ne_nil rfl
      refine .literal hprev ?_
      rw [if_neg hne, String.toList_push]
      exact hlit.point hp

theorem appendOperator (h : GrownFrom Result e) {op : Operator} {e' : Entry}
    (he : e.appendOperator op = .ok e') : GrownFrom Result e' := by
  obtain ⟨earlier, last⟩ := e
  cases last with
  | operator op' => cases he
  | number text =>
    simp only [Entry.appendOperator] at he
    split at he
    · cases he
    · next hne =>
      cases he
      exact .operator h hne

theorem mono {Result' : String → Prop} (hres : ∀ base, Result base → Result' base)
    (h : GrownFrom Result e) : GrownFrom Result' e :=
  Grown.mono (fun _ => FirstText.mono hres) h

end Entry.GrownFrom

namespace Calculator

/-- A key that is refused changes nothing, and one that is accepted keeps the
form of the entry if typing does. -/
theorem grown_edit {Result : String → Prop} {c : Calculator} {edited : Except Refusal Entry}
    (h : c.entry.GrownFrom Result) (hedited : ∀ e, edited = .ok e → e.GrownFrom Result) :
    (c.edit edited).calculator.entry.GrownFrom Result := by
  cases edited with
  | ok e => exact hedited e rfl
  | error refusal => exact h

/-- What solving leaves is a single literal with the outcome in it. -/
theorem exists_solve_eq (c : Calculator) :
    ∃ log, c.solve = c.conclude log (evaluate .common c.entry.tokens) := by
  simp only [solve, evaluate]
  cases toPostfix .common c.entry.tokens with
  | error e => exact ⟨_, rfl⟩
  | ok order => exact ⟨_, rfl⟩

/-- **One key keeps the form of the entry**, if what has been a result still is
one after a key that types, and what solving answers is one. -/
theorem grown_press_of {Result Result' : String → Prop} {c : Calculator} (key : Key)
    (h : c.entry.GrownFrom Result)
    (htyped : key ≠ .solve → key ≠ .clear → ∀ base, Result base → Result' base)
    (hsolved : key = .solve → ∀ outcome, c.solve.outcome? = some outcome →
      Result' (c.outcomeText outcome)) :
    (c.press key).calculator.entry.GrownFrom Result' := by
  cases key with
  | digit d =>
    have hmore := h.mono (htyped nofun nofun)
    refine grown_edit hmore fun e he => ?_
    cases he
    exact hmore.appendDigit d
  | point =>
    have hmore := h.mono (htyped nofun nofun)
    exact grown_edit hmore fun e he => hmore.appendPoint he
  | operator op =>
    have hmore := h.mono (htyped nofun nofun)
    exact grown_edit hmore fun e he => hmore.appendOperator he
  | clear => exact .fresh
  | solve =>
    obtain ⟨log, hsolve⟩ := c.exists_solve_eq
    have hresult := hsolved rfl (evaluate .common c.entry.tokens) (by rw [hsolve]; rfl)
    simp only [press, hsolve]
    exact .ofNumber hresult

/-- One key keeps the form of the entry, with the outcomes so far. -/
theorem grown_press {c : Calculator} {past : List Outcome} (key : Key)
    (h : c.entry.GrownFrom (IsResult c.settings past)) :
    (c.press key).calculator.entry.GrownFrom
      (IsResult c.settings (past ++ (c.press key).outcome?.toList)) := by
  refine grown_press_of key h (fun _ _ base hr => hr.mono _) fun hkey outcome houtcome => ?_
  subst hkey
  rw [press, houtcome]
  exact .outcomeText c past outcome

/-- Whatever is pressed on a new calculator, its entry has the form that keys
give it, and its settings stay. -/
theorem grown_pressAll (settings : Settings) (keys : List Key) :
    let t := (Calculator.new settings).pressAll keys
    t.calculator.settings = settings ∧
      t.calculator.entry.GrownFrom (IsResult settings t.outcomes) := by
  let I : Calculator → List Outcome → Prop := fun c past =>
    c.settings = settings ∧ c.entry.GrownFrom (IsResult settings past)
  have step : ∀ c past key, I c past →
      I (c.press key).calculator (past ++ (c.press key).outcome?.toList) := by
    rintro c past key ⟨rfl, hg⟩
    exact ⟨settings_press c key, grown_press key hg⟩
  have start : I (.new settings) [] := ⟨rfl, .fresh⟩
  simpa using induction_pressAll step keys start

end Calculator

/-! ## Token lists -/

/-- The tokens that keys can have typed, after the outcomes so far. -/
structure Typed (settings : Settings) (outcomes : List Outcome) (ts : List Token) : Prop where
  ne_nil : ts ≠ []
  /-- Literals and operators take turns, and a literal comes first. -/
  alternate : ∀ i (h : i < ts.length), ts[i].isNumber = (i % 2 == 0)
  /-- Only a literal that stands alone can be empty. -/
  alone : ts.head? = some .emptyNumber → ts = [.emptyNumber]
  later : ∀ text, .number text ∈ ts.tail → IsLiteral text.toList
  first : ∀ text, ts.head? = some (.number text) → FirstText (IsResult settings outcomes) text

/-- Of two neighbours one is at an even position. -/
theorem not_even_succ {b : Bool} {n : Nat} (h : b = (n % 2 == 0)) : (!b) = ((n + 1) % 2 == 0) := by
  subst h
  rcases Nat.mod_two_eq_zero_or_one n with hn | hn
  · have : (n + 1) % 2 = 1 := by omega
    simp [hn, this]
  · have : (n + 1) % 2 = 0 := by omega
    simp [hn, this]

theorem alternate_snoc {ts : List Token} {t : Token} (ht : t.isNumber = (ts.length % 2 == 0))
    (hts : ∀ i (h : i < ts.length), ts[i].isNumber = (i % 2 == 0)) :
    ∀ i (h : i < (ts ++ [t]).length), (ts ++ [t])[i].isNumber = (i % 2 == 0) := by
  intro i hi
  rw [List.getElem_append]
  split
  · next hlt => exact hts i hlt
  · next hge =>
    rw [List.length_append, List.length_singleton] at hi
    have : i = ts.length := by omega
    subst this
    simpa using ht

namespace Grown

variable {First : String → Prop} {earlier : List Token} {last : Token}

theorem isNumber_last (h : Grown First earlier last) :
    last.isNumber = (earlier.length % 2 == 0) := by
  induction h with
  | first _ => rfl
  | operator _ _ ih => exact not_even_succ ih
  | literal _ _ ih => exact not_even_succ ih

theorem alternate (h : Grown First earlier last) :
    ∀ i (hi : i < (earlier.reverse ++ [last]).length),
      (earlier.reverse ++ [last])[i].isNumber = (i % 2 == 0) := by
  refine alternate_snoc (by simpa using h.isNumber_last) ?_
  induction h with
  | first _ => simp
  | operator hprev _ ih | literal hprev _ ih =>
    rw [List.reverse_cons]
    exact alternate_snoc (by simpa using hprev.isNumber_last) ih

/-- The tokens begin with a literal of the form `First`, which is empty only
if it stands alone, and later literals are typed ones. -/
theorem exists_cons (h : Grown First earlier last) : ∃ text ts,
    earlier.reverse ++ [last] = .number text :: ts ∧ First text ∧
      (text = "" → ts = []) ∧ ∀ text', .number text' ∈ ts → IsLiteral text'.toList := by
  induction h with
  | @first text hfirst => exact ⟨text, [], rfl, hfirst, fun _ => rfl, by simp⟩
  | @operator earlier text op hprev hne ih =>
    obtain ⟨text₁, ts, heq, hfirst, hempty, hlit⟩ := ih
    refine ⟨text₁, ts ++ [.operator op], by simp [heq], hfirst, fun h0 => ?_, fun text' hmem => ?_⟩
    · rw [hempty h0, ← List.nil_append [Token.number text₁]] at heq
      have := (List.append_inj' heq rfl).2
      simp only [List.cons.injEq, Token.number.injEq, and_true] at this
      exact absurd (this.trans h0) hne
    · simp only [List.mem_append, List.mem_singleton, reduceCtorEq, or_false] at hmem
      exact hlit text' hmem
  | @literal earlier op text hprev hlit' ih =>
    obtain ⟨text₁, ts, heq, hfirst, hempty, hlit⟩ := ih
    refine ⟨text₁, ts ++ [.number text], by simp [heq], hfirst, fun h0 => ?_, fun text' hmem => ?_⟩
    · rw [hempty h0, ← List.nil_append [Token.number text₁]] at heq
      have := (List.append_inj' heq rfl).2
      cases this
    · rcases List.mem_append.mp hmem with hmem | hmem
      · exact hlit text' hmem
      · cases List.mem_singleton.mp hmem
        exact hlit'

end Grown

/-- **What keys can have typed.** Whatever keys are pressed on a new
calculator under whatever settings, literals and operators take turns, only a
lone literal can be empty, later literals are digits with at most one point,
and the first one is that or a result or error marker with what was typed
after it. -/
theorem typed_pressAll (settings : Settings) (keys : List Key) :
    Typed settings ((Calculator.new settings).pressAll keys).outcomes
      ((Calculator.new settings).pressAll keys).calculator.entry.tokens := by
  have hgrown := (Calculator.grown_pressAll settings keys).2
  generalize ((Calculator.new settings).pressAll keys).outcomes = outcomes at hgrown ⊢
  generalize ((Calculator.new settings).pressAll keys).calculator.entry = e at hgrown ⊢
  obtain ⟨text, ts, heq, hfirst, hempty, hlit⟩ := hgrown.exists_cons
  have halternate := hgrown.alternate
  rw [Entry.tokens_eq]
  refine ⟨by simp, halternate, ?_, ?_, ?_⟩
  · rw [heq]
    intro h
    cases h
    rw [hempty rfl]
    rfl
  · rw [heq]
    exact hlit
  · rw [heq]
    intro text' h
    cases h
    exact hfirst

end Keypad
