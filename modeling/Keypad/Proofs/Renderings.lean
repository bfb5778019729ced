/-
An expression is known by how it is shown.

No literal has a space in it unless the error marker has one, so splitting a
shown text at its spaces gives the words of its tokens. A word alone may stand
for a literal or for an operator, as an error marker may be `+`; but only the
first literal can be a marker, and the first word is always a literal.

* `splitOn_shown`, `splitOn_spacedText`: the words of the display, and those of
  a postfix order.
* `eq_of_map_text`: the words after the first literal determine the tokens.
* `eq_of_rendering`: expressions with one display are the same, and so are
  complete ones with one postfix order.
-/
import Keypad.Proofs.Characters
import Keypad.Proofs.Retyping
import Keypad.Proofs.Solving

namespace Keypad

/-! ## Texts without spaces -/

/-- A text that is a word of its own where words are split at spaces. -/
def Spaceless (cs : List Char) : Prop := ' ' ∉ cs

theorem Blankless.spaceless {cs : List Char} (h : Blankless cs) : Spaceless cs :=
  fun hmem => by cases h _ hmem

/-- Under an error marker without spaces no key types one. -/
theorem Calculator.grown_spaceless (settings : Settings)
    (h : Spaceless settings.errorMarker.toList) (keys : List Key) :
    let e := ((Calculator.new settings).pressAll keys).calculator.entry
    Grown (fun text => Spaceless text.toList) e.earlier e.last := by
  have hmarker : ∀ c ∈ settings.errorMarker.toList, c ≠ ' ' := fun c hc heq => h (heq ▸ hc)
  have hblank : ∀ c, Text.isBlank c = false → c ≠ ' ' := by
    rintro _ hc rfl
    cases hc
  exact (grown_chars hblank settings hmarker keys).mono fun text htext hmem => htext ' ' hmem rfl

/-! ## Words -/

/-- The word that a token is shown by. -/
def Token.word (t : Token) : List Char := t.text.toList

theorem Token.word_operator (op : Operator) : (operator op).word = [op.symbol] := by
  simp [word, text, Operator.text]

theorem Operator.spaceless_symbol (op : Operator) : Spaceless [op.symbol] := by
  cases op <;> simp [Spaceless, symbol]

theorem Operator.isDigit_symbol (op : Operator) : op.symbol.isDigit = false := by
  cases op <;> rfl

/-- The word after the last token: after an operator and its space another
word could begin. -/
def Token.endWords : Token → List (List Char)
  | number _ => []
  | operator _ => [[]]

/-- An operator adds its word to what is shown before it. -/
theorem splitOn_append_shownToken_operator (cs ds : List Char) (op : Operator) :
    (cs ++ Entry.shownToken (.operator op) ++ ds).splitOn ' ' =
      cs.splitOn ' ' ++ Token.word (.operator op) :: ds.splitOn ' ' := by
  have hshown : cs ++ Entry.shownToken (.operator op) ++ ds =
      cs ++ ' ' :: ([op.symbol] ++ ' ' :: ds) := by
    simp [Entry.shownToken]
  rw [hshown, List.splitOn_append_cons_self, List.splitOn_append_cons_self,
    List.splitOn_eq_singleton op.spaceless_symbol, Token.word_operator]
  rfl

/-- **The words of the display** are those of the tokens. -/
theorem Grown.splitOn_shown {earlier : List Token} {last : Token}
    (h : Grown (fun text => Spaceless text.toList) earlier last) :
    ((earlier.reverse ++ [last]).flatMap Entry.shownToken).splitOn ' ' =
      (earlier.reverse ++ [last]).map Token.word ++ last.endWords := by
  induction h with
  | @first text hfirst =>
    rw [List.reverse_nil, List.nil_append, List.flatMap_singleton]
    exact List.splitOn_eq_singleton hfirst
  | @operator earlier text op _ _ ih =>
    have hsplit := splitOn_append_shownToken_operator
      ((earlier.reverse ++ [Token.number text]).flatMap Entry.shownToken) [] op
    rw [ih] at hsplit
    rw [List.reverse_cons, List.flatMap_append, List.flatMap_singleton]
    simpa [Token.endWords] using hsplit
  | @literal earlier op text _ hlit ih =>
    have hsplit := splitOn_append_shownToken_operator (earlier.reverse.flatMap Entry.shownToken)
    rw [List.flatMap_append, List.flatMap_singleton] at ih
    -- `ih` speaks of the expression with its operator, the text of which is cut
    -- off again by adding nothing after it.
    have hearlier : (earlier.reverse.flatMap Entry.shownToken).splitOn ' ' =
        earlier.reverse.map Token.word := by
      have hnil := hsplit [] op
      rw [List.append_nil, ih, List.map_append, List.append_assoc] at hnil
      exact (List.append_cancel_right hnil).symm
    have htext := hsplit text.toList op
    rw [hearlier, List.splitOn_eq_singleton hlit.blankless.spaceless] at htext
    rw [List.reverse_cons, List.flatMap_append, List.flatMap_append, List.flatMap_singleton,
      List.flatMap_singleton]
    simpa [Token.endWords, Token.word, Token.text, Entry.shownToken] using htext

/-! ## From words to tokens -/

/-- A typed literal is no operator. -/
theorem IsLiteral.ne_singleton_symbol {cs : List Char} (h : IsLiteral cs) (op : Operator) :
    cs ≠ [op.symbol] := by
  rintro rfl
  obtain ⟨ds, hne, hds, heq | ⟨fs, -, heq⟩⟩ := h
  · have hsymbol := hds op.symbol (by simp [← heq])
    rw [op.isDigit_symbol] at hsymbol
    cases hsymbol
  · obtain ⟨d, ds, rfl⟩ := List.exists_cons_of_ne_nil hne
    simp at heq

/-- Literals of the token list are literals as they are typed. -/
def TypedLiterals (ts : List Token) : Prop := ∀ text, .number text ∈ ts → IsLiteral text.toList

theorem Token.eq_of_word {t t' : Token} (h : TypedLiterals [t]) (h' : TypedLiterals [t'])
    (hword : t.word = t'.word) : t = t' := by
  cases t with
  | number text =>
    cases t' with
    | number text' =>
      have htext : text = text' := String.toList_inj.mp hword
      rw [htext]
    | operator op' =>
      rw [word_operator] at hword
      exact absurd hword ((h text (by simp)).ne_singleton_symbol op')
  | operator op =>
    rw [word_operator] at hword
    cases t' with
    | number text' => exact absurd hword.symm ((h' text' (by simp)).ne_singleton_symbol op)
    | operator op' =>
      rw [word_operator] at hword
      have hop : Operator.ofChar? op.symbol = Operator.ofChar? op'.symbol := by
        rw [(List.cons.inj hword).1]
      simp at hop
      rw [hop]

namespace TypedLiterals

theorem of_cons {t : Token} {ts : List Token} (h : TypedLiterals (t :: ts)) :
    TypedLiterals [t] ∧ TypedLiterals ts :=
  ⟨fun text hmem => h text (List.mem_cons.mpr (.inl (List.mem_singleton.mp hmem))),
    fun text hmem => h text (List.mem_cons_of_mem _ hmem)⟩

/-- No word is empty. -/
theorem word_ne_nil {ts : List Token} (h : TypedLiterals ts) {t : Token} (ht : t ∈ ts) :
    t.word ≠ [] := by
  cases t with
  | number text => exact (h text ht).ne_nil
  | operator op => simp [Token.word_operator]

/-- **Words determine tokens** if no literal looks like an operator. -/
theorem eq_of_map_word {ts ts' : List Token} (h : TypedLiterals ts) (h' : TypedLiterals ts')
    (hwords : ts.map Token.word = ts'.map Token.word) : ts = ts' := by
  induction ts generalizing ts' with
  | nil => exact (List.map_eq_nil_iff.mp hwords.symm).symm
  | cons t ts ih =>
    obtain ⟨t', ts', rfl⟩ := List.exists_cons_of_ne_nil (l := ts') (by rintro rfl; cases hwords)
    obtain ⟨ht, hts⟩ := h.of_cons
    obtain ⟨ht', hts'⟩ := h'.of_cons
    obtain ⟨hword, hwords⟩ := List.cons.inj hwords
    rw [Token.eq_of_word ht ht' hword, ih hts hts' hwords]

/-- The word after the last token does not count: it is the only empty one. -/
theorem eq_of_map_word_append {ts ts' : List Token} (h : TypedLiterals ts)
    (h' : TypedLiterals ts') {last last' : Token}
    (hwords : ts.map Token.word ++ last.endWords = ts'.map Token.word ++ last'.endWords) :
    ts = ts' := by
  -- The lists may end in different ways, so the words are read off by leaving
  -- out the empty one.
  have hfilter : ∀ {us : List Token} (u : Token), TypedLiterals us →
      (us.map Token.word ++ u.endWords).filter (· ≠ []) = us.map Token.word := by
    intro us u hus
    have hend : u.endWords.filter (· ≠ []) = [] := by cases u <;> rfl
    rw [List.filter_append, hend, List.append_nil, List.filter_eq_self]
    intro w hw
    obtain ⟨t, ht, rfl⟩ := List.mem_map.mp hw
    simpa using hus.word_ne_nil ht
  refine h.eq_of_map_word h' ?_
  rw [← hfilter last h, hwords, hfilter last' h']

end TypedLiterals

/-! ## Postfix orders -/

namespace Expr

/-- Both listings of a tree have its literals in the same order. -/
theorem literals_postorder (t : Expr) : literals t.postorder = literals t.inorder := by
  induction t with
  | literal text => rfl
  | node op left right ihl ihr => simp [postorder, inorder, ihl, ihr]

/-- A tree is listed from its first literal on. -/
theorem exists_postorder_cons (t : Expr) : ∃ text ts, t.postorder = .number text :: ts := by
  induction t with
  | literal text => exact ⟨text, [], rfl⟩
  | node op left right ihl _ =>
    obtain ⟨text, ts, hleft⟩ := ihl
    refine ⟨text, ts ++ right.postorder ++ [.operator op], ?_⟩
    rw [postorder, hleft]
    rfl

/-- If all literals but the first are typed, they are in postorder too. -/
theorem exists_typed_postorder {t : Expr} {text : String} {ts : List Token}
    (h : t.inorder = .number text :: ts) (hts : TypedLiterals ts) :
    ∃ order, t.postorder = .number text :: order ∧ TypedLiterals order := by
  obtain ⟨text', order, horder⟩ := t.exists_postorder_cons
  have hliterals := t.literals_postorder
  rw [h, horder, literals_number, literals_number] at hliterals
  obtain ⟨rfl, hrest⟩ := List.cons.inj hliterals
  refine ⟨order, horder, fun u hu => hts u ?_⟩
  rw [← mem_literals] at hu ⊢
  rwa [hrest] at hu

end Expr

theorem Token.spaceless_word {t : Token} (h : TypedLiterals [t]) : Spaceless t.word := by
  cases t with
  | number text => exact (h text (by simp)).blankless.spaceless
  | operator op =>
    rw [word_operator]
    exact op.spaceless_symbol

/-- **The words of a postfix order** are those of the tokens. -/
theorem splitOn_spacedText {text : String} {ts : List Token} (htext : Spaceless text.toList)
    (hts : TypedLiterals ts) : (spacedText (.number text :: ts)).toList.splitOn ' ' =
      text.toList :: ts.map Token.word := by
  rw [spacedText, String.toList_ofList]
  refine List.splitOn_intercalate _ (List.forall_mem_cons.mpr ⟨htext, fun w hw => ?_⟩) (by simp)
  obtain ⟨t, ht, rfl⟩ := List.mem_map.mp hw
  refine Token.spaceless_word fun u hu => hts u ?_
  rwa [List.mem_singleton.mp hu]

/-! ## Entries -/

theorem Token.exists_number_of_isNumber {t : Token} (h : t.isNumber = true) :
    ∃ text, t = .number text := by
  cases t with
  | number text => exact ⟨text, rfl⟩
  | operator op => cases h

namespace Grown

variable {earlier earlier' : List Token} {last last' : Token} {text text' : String}

/-- Expressions that are shown by the same text are the same. -/
theorem eq_of_shown (h : Grown (fun text => Spaceless text.toList) earlier last)
    (h' : Grown (fun text => Spaceless text.toList) earlier' last')
    (hshown : (earlier.reverse ++ [last]).flatMap Entry.shownToken =
      (earlier'.reverse ++ [last']).flatMap Entry.shownToken) :
    earlier.reverse ++ [last] = earlier'.reverse ++ [last'] := by
  have hsplit := congrArg (List.splitOn ' ') hshown
  rw [h.splitOn_shown, h'.splitOn_shown] at hsplit
  obtain ⟨first, ts, htokens, -, -, hts⟩ := h.exists_cons
  obtain ⟨first', ts', htokens', -, -, hts'⟩ := h'.exists_cons
  rw [htokens, htokens'] at hsplit ⊢
  obtain ⟨hfirst, hwords⟩ := List.cons.inj hsplit
  have heq : first = first' := String.toList_inj.mp hfirst
  rw [heq, TypedLiterals.eq_of_map_word_append hts hts' hwords]

/-- A complete expression is a tree, and its postfix order is shown with the
word of its first literal in front. -/
theorem exists_tree (h : Grown (fun text => Spaceless text.toList) earlier (.number text)) :
    ∃ (t : Expr) (first : String) (order : List Token),
      t.inorder = earlier.reverse ++ [Token.number text] ∧ t.postorder = .number first :: order ∧
      Spaceless first.toList ∧ TypedLiterals order ∧
      toPostfix .common (earlier.reverse ++ [Token.number text]) = .ok t.postorder := by
  obtain ⟨c, hdef, htokens⟩ := h.exists_chain
  simp only at htokens
  obtain ⟨first, ts, hcons, hfirst, -, hts⟩ := h.exists_cons
  have hinorder : c.group.inorder = .number first :: ts := by
    rw [Chain.inorder_group, ← hcons, htokens]
  obtain ⟨order, horder, htyped⟩ := Expr.exists_typed_postorder hinorder hts
  refine ⟨c.group, first, order, by rw [hinorder, hcons], horder, hfirst, htyped, ?_⟩
  rw [htokens]
  exact Chain.toPostfix_postorder_group hdef

/-- Complete expressions whose postfix orders are shown by the same text are
the same. -/
theorem eq_of_spacedText {order order' : List Token}
    (h : Grown (fun text => Spaceless text.toList) earlier (.number text))
    (h' : Grown (fun text => Spaceless text.toList) earlier' (.number text'))
    (horder : toPostfix .common (earlier.reverse ++ [Token.number text]) = .ok order)
    (horder' : toPostfix .common (earlier'.reverse ++ [Token.number text']) = .ok order')
    (hshown : spacedText order = spacedText order') :
    earlier.reverse ++ [Token.number text] = earlier'.reverse ++ [Token.number text'] := by
  obtain ⟨t, first, ts, hinorder, hpostorder, hfirst, hts, ht⟩ := h.exists_tree
  obtain ⟨t', first', ts', hinorder', hpostorder', hfirst', hts', ht'⟩ := h'.exists_tree
  rw [horder, hpostorder] at ht
  rw [horder', hpostorder'] at ht'
  cases ht
  cases ht'
  have hsplit := congrArg (fun shown => shown.toList.splitOn ' ') hshown
  rw [splitOn_spacedText hfirst hts, splitOn_spacedText hfirst' hts'] at hsplit
  obtain ⟨hword, hwords⟩ := List.cons.inj hsplit
  -- A postfix order is that of one tree only, and that tree is the expression.
  have htree : t = t' := by
    refine Expr.postorder_injective ?_
    rw [hpostorder, hpostorder', String.toList_inj.mp hword, hts.eq_of_map_word hts' hwords]
  rw [← hinorder, ← hinorder', htree]

end Grown

/-- **Both renderings determine the expression.** Let keys be pressed on two
calculators whose error markers have no space in them. If the displays then
show the same text, the tokens are the same; and if both expressions end in a
literal and their postfix orders are shown by the same text, the tokens are the
same too. -/
theorem eq_of_rendering (settings settings' : Settings) (keys keys' : List Key)
    (hmarker : ' ' ∉ settings.errorMarker.toList) (hmarker' : ' ' ∉ settings'.errorMarker.toList) :
    let c := ((Calculator.new settings).pressAll keys).calculator
    let c' := ((Calculator.new settings').pressAll keys').calculator
    (c.display = c'.display → c.entry.tokens = c'.entry.tokens) ∧
      (c.entry.last.isNumber = true → c'.entry.last.isNumber = true →
        c.postfixText? = c'.postfixText? → c.entry.tokens = c'.entry.tokens) := by
  intro c c'
  have hgrown := Calculator.grown_spaceless settings hmarker keys
  have hgrown' := Calculator.grown_spaceless settings' hmarker' keys'
  change Grown _ c.entry.earlier c.entry.last at hgrown
  change Grown _ c'.entry.earlier c'.entry.last at hgrown'
  constructor
  · intro hdisplay
    have hshown := congrArg String.toList hdisplay
    rw [Calculator.display, Calculator.display, Entry.toList_display, Entry.toList_display] at hshown
    rw [Entry.tokens_eq, Entry.tokens_eq]
    exact hgrown.eq_of_shown hgrown' hshown
  · intro hlast hlast' hpost
    obtain ⟨text, htext⟩ := Token.exists_number_of_isNumber hlast
    obtain ⟨text', htext'⟩ := Token.exists_number_of_isNumber hlast'
    rw [htext] at hgrown
    rw [htext'] at hgrown'
    obtain ⟨t, -, -, -, -, -, -, ht⟩ := hgrown.exists_tree
    obtain ⟨t', -, -, -, -, -, -, ht'⟩ := hgrown'.exists_tree
    rw [Entry.tokens_eq, Entry.tokens_eq, htext, htext']
    simp only [Calculator.postfixText?, Entry.tokens_eq, htext, htext', ht, ht'] at hpost
    exact hgrown.eq_of_spacedText hgrown' ht ht' (Option.some.inj hpost)

/-- The error marker `+` looks like an operator, but the first word is a
literal. -/
theorem eq_of_rendering_marker :
    let pressed : Operator → List Key → Calculator := fun op later =>
      ((Calculator.new ⟨"+", false⟩).pressAll
        ([Key.digit ⟨1, by decide⟩, .operator op, .solve, .operator .times] ++ later)).calculator
    let three := Key.digit ⟨3, by decide⟩
    ' ' ∉ "+".toList ∧ (pressed .minus []).display = "+ * " ∧ (pressed .power []).display = "+ * " ∧
      (pressed .minus []).entry.tokens = (pressed .power []).entry.tokens ∧
      (pressed .minus [three]).entry.last.isNumber = true ∧
      (pressed .power [three]).entry.last.isNumber = true ∧
      (pressed .minus [three]).postfixText? = some "+ 3 *" ∧
      (pressed .power [three]).postfixText? = some "+ 3 *" ∧
      (pressed .minus [three]).entry.tokens = (pressed .power [three]).entry.tokens := by
  intro pressed three
  have hmarker : ' ' ∉ "+".toList := by decide
  have hdisplay : (pressed .minus []).display = "+ * " := by decide +kernel
  have hdisplay' : (pressed .power []).display = "+ * " := by decide +kernel
  have hlast : (pressed .minus [three]).entry.last.isNumber = true := by decide +kernel
  have hlast' : (pressed .power [three]).entry.last.isNumber = true := by decide +kernel
  have hpost : (pressed .minus [three]).postfixText? = some "+ 3 *" := by decide +kernel
  have hpost' : (pressed .power [three]).postfixText? = some "+ 3 *" := by decide +kernel
  have hdangling := (eq_of_rendering ⟨"+", false⟩ ⟨"+", false⟩ _ _ hmarker hmarker).1
    (hdisplay.trans hdisplay'.symm)
  have hcomplete := (eq_of_rendering ⟨"+", false⟩ ⟨"+", false⟩ _ _ hmarker hmarker).2 hlast hlast'
    (hpost.trans hpost'.symm)
  exact ⟨hmarker, hdisplay, hdisplay', hdangling, hlast, hlast', hpost, hpost', hcomplete⟩

/-- Without its last literal an expression may share its postfix order with
another one: `1 + 2 *` and `1 * 2 +`. -/
example : toPostfix .common [.number "1", .operator .plus, .number "2", .operator .times] =
    toPostfix .common [.number "1", .operator .times, .number "2", .operator .plus] := by decide

end Keypad
