/-
The longest numeral that a text begins with, found in one pass.

Numerals are not closed under initial parts: `1e` and `1e+` stand between the
numerals `1` and `1e+5`, and `infin` between `inf` and `infinity`. Still, one
pass from left to right finds the longest: what may stand after a sign, after
the digits and after `e` begins in different ways.

* `isSome_magnitude?_iff`: the texts that are read as unsigned numbers, given by
  a grammar.
* `Scan.leading?_spec`, `Scan.leading?_longest`: the pass finds a numeral, and no
  initial part that goes beyond it is one.
* `read_scan`: so a text is read as what the pass finds.
-/
import Mathlib.Data.List.TakeWhile
import Keypad.Numeral.Scan
import Keypad.Proofs.Literals

namespace Keypad

namespace Numeral

/-! ## Grammar -/

def IsSign (s : List Char) : Prop := s = [] ∨ s = ['+'] ∨ s = ['-']

/-- Nothing, or `e` or `E`, an optional sign and digits. -/
inductive IsExponent : List Char → Prop
  | none : IsExponent []
  | some {c : Char} {s ds : List Char} : c = 'e' ∨ c = 'E' → IsSign s → Digits ds → ds ≠ [] →
      IsExponent (c :: (s ++ ds))

/-- What may stand after the sign of a numeral. -/
inductive IsMagnitude : List Char → Prop
  | word {cs : List Char} : cs.map Char.toLower ∈ Scan.words → IsMagnitude cs
  | decimal {m ds fs x : List Char} : IsMantissa m ds fs → IsExponent x → IsMagnitude (m ++ x)

theorem IsExponent.endsMantissa {x : List Char} (h : IsExponent x) (rest : List Char) :
    x = [] ∨ EndsMantissa (x ++ rest) := by
  cases h with
  | none => exact .inl rfl
  | some hc =>
    right
    rintro c' hc'
    cases hc'
    rcases hc with rfl | rfl <;> decide

/-! ## Signs -/

namespace Scan

theorem sign_append_drop (cs : List Char) : sign cs ++ cs.drop (sign cs).length = cs := by
  unfold sign
  split <;> rfl

theorem sign_eq_nil {cs : List Char} (hplus : ∀ rest, cs = '+' :: rest → False)
    (hminus : ∀ rest, cs = '-' :: rest → False) : sign cs = [] := by
  unfold sign
  split
  · exact absurd rfl (hplus _)
  · exact absurd rfl (hminus _)
  · rfl

theorem isSign_sign (cs : List Char) : IsSign (sign cs) := by
  unfold sign
  split
  · exact .inr (.inl rfl)
  · exact .inr (.inr rfl)
  · exact .inl rfl

/-- Only the first character tells whether there is a sign. -/
theorem sign_of_isPrefix {p cs : List Char} (h : p <+: cs) (hne : p ≠ []) : sign p = sign cs := by
  obtain ⟨rest, rfl⟩ := h
  obtain ⟨c, p, rfl⟩ := List.exists_cons_of_ne_nil hne
  unfold sign
  split <;> simp_all

/-- In front of digits a sign is all of it. -/
theorem sign_append {s ds rest : List Char} (hs : IsSign s) (hds : Digits ds) (hne : ds ≠ []) :
    sign (s ++ (ds ++ rest)) = s := by
  obtain ⟨d, ds, rfl⟩ := List.exists_cons_of_ne_nil hne
  have hd : d.isDigit = true := hds d (List.mem_cons_self ..)
  rcases hs with rfl | rfl | rfl
  · unfold sign
    split
    · next heq => cases heq; contradiction
    · next heq => cases heq; contradiction
    · rfl
  · rfl
  · rfl

end Scan

theorem splitSign_eq (cs : List Char) :
    splitSign cs = (Scan.sign cs == ['-'], cs.drop (Scan.sign cs).length) := by
  unfold splitSign
  split
  · rfl
  · rfl
  · next hplus hminus =>
    rw [Scan.sign_eq_nil hplus hminus]
    rfl

/-! ## Numbers as a whole -/

theorem isSome_integer?_iff {cs : List Char} :
    (integer? cs).isSome ↔ ∃ s ds, IsSign s ∧ Digits ds ∧ ds ≠ [] ∧ cs = s ++ ds := by
  unfold integer?
  rw [splitSign_eq]
  dsimp only
  constructor
  · intro h
    split at h
    · next hds =>
      exact ⟨_, _, Scan.isSign_sign cs, List.all_eq_true.mp hds.2, hds.1,
        (Scan.sign_append_drop cs).symm⟩
    · cases h
  · rintro ⟨s, ds, hs, hds, hne, rfl⟩
    have hsign := @Scan.sign_append s ds [] hs hds hne
    rw [List.append_nil] at hsign
    rw [hsign, List.drop_left, if_pos ⟨hne, List.all_eq_true.mpr hds⟩]
    rfl

theorem isSome_exponent?_iff {x : List Char} : (exponent? x).isSome ↔ IsExponent x := by
  cases x with
  | nil => exact ⟨fun _ => .none, fun _ => rfl⟩
  | cons c cs =>
    constructor
    · intro h
      simp only [exponent?] at h
      split at h
      · next hc =>
        obtain ⟨s, ds, hs, hds, hne, rfl⟩ := isSome_integer?_iff.mp h
        exact .some hc hs hds hne
      · cases h
    · intro h
      simp only [exponent?]
      cases h with
      | some hc hs hds hne =>
        rw [if_pos hc, isSome_integer?_iff]
        exact ⟨_, _, hs, hds, hne, rfl⟩

/-- What the digits of a decimal leave. -/
theorem exists_mantissa_of_decimal? {cs : List Char} (h : (decimal? cs).isSome) :
    ∃ m ds fs x, cs = m ++ x ∧ IsMantissa m ds fs ∧ (exponent? x).isSome := by
  have hdigits : ∀ cs : List Char, Digits (cs.takeWhile Char.isDigit) :=
    fun cs c hc => List.mem_takeWhile_imp hc
  have hcs := @List.takeWhile_append_dropWhile _ Char.isDigit cs
  unfold decimal? splitFraction at h
  rw [List.span_eq_takeWhile_dropWhile] at h
  dsimp only at h
  generalize cs.takeWhile Char.isDigit = ds, hdigits cs = hds at hcs h
  generalize cs.dropWhile Char.isDigit = rest at hcs h
  split at h
  · next rest =>
    have hrest := @List.takeWhile_append_dropWhile _ Char.isDigit rest
    rw [List.span_eq_takeWhile_dropWhile] at h
    dsimp only at h
    split at h
    · cases h
    · next hne =>
      refine ⟨_, _, _, _, ?_, .point hds (hdigits rest) ?_, by simpa using h⟩
      · rw [← hcs, List.append_assoc, List.cons_append, hrest]
      · simpa using hne
  · split at h
    · cases h
    · next hne =>
      exact ⟨_, _, _, _, hcs.symm, .whole hds (by simpa using hne), by simpa using h⟩

theorem isSome_decimal?_iff {cs : List Char} : (decimal? cs).isSome ↔
    ∃ m ds fs x, cs = m ++ x ∧ IsMantissa m ds fs ∧ IsExponent x := by
  constructor
  · intro h
    obtain ⟨m, ds, fs, x, hcs, hm, hx⟩ := exists_mantissa_of_decimal? h
    exact ⟨m, ds, fs, x, hcs, hm, isSome_exponent?_iff.mp hx⟩
  · rintro ⟨m, ds, fs, x, rfl, hm, hx⟩
    have hends : EndsMantissa x := by
      rcases hx.endsMantissa [] with rfl | hends
      · exact nofun
      · rwa [List.append_nil] at hends
    rw [decimal?_append hm hends, Option.isSome_map, isSome_exponent?_iff]
    exact hx

/-- **The grammar.** Exactly these texts are read as unsigned numbers. -/
theorem isSome_magnitude?_iff {cs : List Char} : (magnitude? cs).isSome ↔ IsMagnitude cs := by
  unfold magnitude?
  dsimp only
  constructor
  · intro h
    split at h
    · next hword => exact .word (by rcases hword with hword | hword <;> simp [hword, Scan.words])
    · split at h
      · next hword => exact .word (by simp [hword, Scan.words])
      · rw [Option.isSome_map, isSome_decimal?_iff] at h
        obtain ⟨m, ds, fs, x, rfl, hm, hx⟩ := h
        exact .decimal hm hx
  · intro h
    cases h with
    | word hword =>
      split
      · rfl
      · split
        · rfl
        · simp_all [Scan.words]
    | decimal hm hx =>
      split
      · rfl
      · split
        · rfl
        · rw [Option.isSome_map, isSome_decimal?_iff]
          exact ⟨_, _, _, _, rfl, hm, hx⟩

/-- A text is read as a number if what follows its sign is. -/
theorem isSome_ofChars?_append {s cs : List Char} (hs : Scan.sign (s ++ cs) = s) :
    (ofChars? (s ++ cs)).isSome ↔ IsMagnitude cs := by
  rw [ofChars?, splitSign_eq, hs, List.drop_left, Option.isSome_map, isSome_magnitude?_iff]

namespace Scan

/-! ## The pass -/

theorem word?_spec {cs p : List Char} (h : word? words cs = some p) :
    p <+: cs ∧ p.map Char.toLower ∈ words := by
  obtain ⟨w, hw, rfl⟩ := Option.map_eq_some_iff.mp h
  have hlower : (cs.take w.length).map Char.toLower = w := by simpa using List.find?_some hw
  exact ⟨List.take_prefix .., by rw [hlower]; exact List.mem_of_find?_eq_some hw⟩

/-- If a text begins with a word one is found that is not shorter. -/
theorem exists_word? {w cs : List Char} (hw : w.map Char.toLower ∈ words) (h : w <+: cs) :
    ∃ p, word? words cs = some p ∧ w.length ≤ p.length := by
  have hlower : (cs.take (w.map Char.toLower).length).map Char.toLower = w.map Char.toLower := by
    rw [List.length_map, ← List.prefix_iff_eq_take.mp h]
  obtain ⟨v, hv⟩ : ∃ v, words.find? (fun w => (cs.take w.length).map Char.toLower = w) = some v :=
    Option.isSome_iff_exists.mp (List.find?_isSome.mpr ⟨_, hw, decide_eq_true hlower⟩)
  have hlength : (cs.take v.length).length = v.length := by
    have : (cs.take v.length).map Char.toLower = v := by simpa using List.find?_some hv
    rw [← List.length_map Char.toLower, this]
  refine ⟨_, Option.map_eq_some_iff.mpr ⟨v, hv, rfl⟩, ?_⟩
  rw [hlength, ← List.length_map Char.toLower]
  -- Of two words that a text can begin with the longer one is looked for first.
  by_cases hfirst : w.map Char.toLower = ['i', 'n', 'f', 'i', 'n', 'i', 't', 'y']
  · rw [words, List.find?_cons_of_pos (by rw [← hfirst]; exact decide_eq_true hlower)] at hv
    cases hv
    rw [hfirst]
  · have hshort : ∀ u ∈ words, u ≠ ['i', 'n', 'f', 'i', 'n', 'i', 't', 'y'] → u.length = 3 := by
      decide
    have hlong : ∀ u ∈ words, 3 ≤ u.length := by decide
    rw [hshort _ hw hfirst]
    exact hlong v (List.mem_of_find?_eq_some hv)

/-- No word begins like a decimal. -/
theorem word?_mantissa {m ds fs rest : List Char} (h : IsMantissa m ds fs) :
    word? words (m ++ rest) = none := by
  obtain ⟨c, m, rfl, hc⟩ : ∃ c m', m = c :: m' ∧ (c.isDigit = true ∨ c = '.') := by
    cases h with
    | whole hds hne =>
      obtain ⟨d, ds, rfl⟩ := List.exists_cons_of_ne_nil hne
      exact ⟨d, ds, rfl, .inl (hds d (List.mem_cons_self ..))⟩
    | @point ds fs hds hfs hne =>
      cases ds with
      | nil => exact ⟨'.', fs, rfl, .inr rfl⟩
      | cons d ds => exact ⟨d, ds ++ '.' :: fs, rfl, .inl (hds d (List.mem_cons_self ..))⟩
  have hlower : c.toLower = c := by
    rcases hc with hc | rfl
    · exact toLower_of_isDigit hc
    · rfl
  have hi : c ≠ 'i' := by
    rintro rfl
    simp at hc
  have hn : c ≠ 'n' := by
    rintro rfl
    simp at hc
  simp [word?, words, hlower, hi, hn]

/-! ## Digits and exponents -/

theorem mantissa_digits_append {ds : List Char} (h : Digits ds) (cs : List Char) :
    mantissa (ds ++ cs) = ds ++ mantissa cs := by
  unfold mantissa
  dsimp only
  rw [List.takeWhile_append_of_pos h, List.length_append, List.drop_append, List.drop_eq_nil_of_le
    (Nat.le_add_right ..), List.nil_append, Nat.add_sub_cancel_left]
  split <;> simp

theorem mantissa_point (cs : List Char) : mantissa ('.' :: cs) = '.' :: cs.takeWhile Char.isDigit :=
  rfl

theorem mantissa_of_endsMantissa {x : List Char} (h : EndsMantissa x) : mantissa x = [] := by
  unfold mantissa
  rw [h.takeWhile]
  dsimp only [List.length_nil, List.drop_zero]
  split
  · exact absurd rfl (h '.' (by simp_all)).2
  · rfl

theorem mantissa_append {m ds fs x : List Char} (h : IsMantissa m ds fs) (hx : EndsMantissa x) :
    mantissa (m ++ x) = m := by
  cases h with
  | whole hds hne =>
    rw [mantissa_digits_append hds, mantissa_of_endsMantissa hx, List.append_nil]
  | point hds hfs hne =>
    rw [List.append_assoc, mantissa_digits_append hds, List.cons_append, mantissa_point,
      List.takeWhile_append_of_pos hfs, hx.takeWhile, List.append_nil]

/-- What follows can only add to the digits. -/
theorem isPrefix_mantissa {m ds fs : List Char} (h : IsMantissa m ds fs) (rest : List Char) :
    m <+: mantissa (m ++ rest) := by
  cases h with
  | whole hds hne =>
    rw [mantissa_digits_append hds]
    exact List.prefix_append ..
  | point hds hfs hne =>
    rw [List.append_assoc, mantissa_digits_append hds, List.cons_append, mantissa_point,
      List.takeWhile_append_of_pos hfs, List.prefix_append_right_inj, List.cons_prefix_cons]
    exact ⟨rfl, List.prefix_append ..⟩

/-- What a text begins with are digits, and perhaps a point and digits. -/
theorem mantissa_cases (cs : List Char) : ∃ ds rest, cs = ds ++ rest ∧ Digits ds ∧
    (mantissa cs = ds ∨ ∃ fs, Digits fs ∧ '.' :: fs <+: rest ∧ mantissa cs = ds ++ '.' :: fs) := by
  induction cs with
  | nil => exact ⟨[], [], rfl, .nil, .inl rfl⟩
  | cons c cs ih =>
    by_cases hc : c.isDigit = true
    · obtain ⟨ds, rest, rfl, hds, hm⟩ := ih
      have hcons : Digits (c :: ds) := List.forall_mem_cons.mpr ⟨hc, hds⟩
      have hmantissa : mantissa (c :: (ds ++ rest)) = c :: mantissa (ds ++ rest) :=
        @mantissa_digits_append [c] (List.forall_mem_singleton.mpr hc) (ds ++ rest)
      refine ⟨c :: ds, rest, rfl, hcons, hm.imp (fun hm => ?_) fun ⟨fs, hfs, hrest, hm⟩ => ?_⟩
      · rw [hmantissa, hm]
      · exact ⟨fs, hfs, hrest, by rw [hmantissa, hm, List.cons_append]⟩
    · refine ⟨[], c :: cs, rfl, .nil, ?_⟩
      by_cases hpoint : c = '.'
      · subst hpoint
        refine .inr ⟨cs.takeWhile Char.isDigit, fun c hc => List.mem_takeWhile_imp hc, ?_, rfl⟩
        rw [List.cons_prefix_cons]
        exact ⟨rfl, List.takeWhile_prefix _⟩
      · refine .inl (mantissa_of_endsMantissa ?_)
        rintro c' hc'
        cases hc'
        exact ⟨Bool.eq_false_iff.mpr hc, hpoint⟩

theorem mantissa_isPrefix (cs : List Char) : mantissa cs <+: cs := by
  obtain ⟨ds, rest, rfl, -, hm | ⟨fs, -, hfs, hm⟩⟩ := mantissa_cases cs
  · rw [hm]
    exact List.prefix_append ..
  · rw [hm, List.prefix_append_right_inj]
    exact hfs

theorem exists_isMantissa {cs : List Char} (h : (mantissa cs).any Char.isDigit = true) :
    ∃ ds fs, IsMantissa (mantissa cs) ds fs := by
  obtain ⟨ds, rest, rfl, hds, hm | ⟨fs, hfs, -, hm⟩⟩ := mantissa_cases cs
  · rw [hm] at h ⊢
    refine ⟨ds, [], .whole hds ?_⟩
    rintro rfl
    cases h
  · rw [hm] at h ⊢
    refine ⟨ds, fs, .point hds hfs ?_⟩
    intro hnil
    obtain ⟨rfl, rfl⟩ := List.append_eq_nil_iff.mp hnil
    cases h

theorem exponent_spec (cs : List Char) : exponent cs <+: cs ∧ IsExponent (exponent cs) := by
  unfold exponent
  split
  · exact ⟨List.prefix_rfl, .none⟩
  · next c cs =>
    dsimp only
    split
    · next h =>
      refine ⟨?_, .some h.1 (isSign_sign cs) (fun c hc => List.mem_takeWhile_imp hc) h.2⟩
      have hcs := sign_append_drop cs
      rw [List.cons_append, List.cons_prefix_cons]
      refine ⟨rfl, ?_⟩
      conv_rhs => rw [← hcs]
      rw [List.prefix_append_right_inj]
      exact List.takeWhile_prefix _
    · exact ⟨List.nil_prefix, .none⟩

/-- An exponent is found whatever follows it, with the digits that follow. -/
theorem isPrefix_exponent {x : List Char} (h : IsExponent x) (rest : List Char) :
    x <+: exponent (x ++ rest) := by
  cases h with
  | none => exact List.nil_prefix
  | @some c s ds hc hs hds hne =>
    have htake : ((ds ++ rest).takeWhile Char.isDigit) = ds ++ rest.takeWhile Char.isDigit :=
      List.takeWhile_append_of_pos hds
    have hfound : ds ++ rest.takeWhile Char.isDigit ≠ [] := by simp [hne]
    rw [List.cons_append, List.append_assoc]
    simp only [exponent, sign_append hs hds hne, List.drop_left, htake]
    rw [if_pos ⟨hc, hfound⟩, List.cons_append, List.cons_prefix_cons, List.prefix_append_right_inj]
    exact ⟨rfl, List.prefix_append ..⟩

theorem decimal?_spec {cs p : List Char} (h : decimal? cs = some p) :
    p <+: cs ∧ IsMagnitude p := by
  unfold decimal? at h
  dsimp only at h
  split at h
  · next hdigit =>
    cases h
    obtain ⟨ds, fs, hm⟩ := exists_isMantissa hdigit
    have hcs := List.prefix_iff_eq_append.mp (mantissa_isPrefix cs)
    obtain ⟨hinitial, hx⟩ := exponent_spec (cs.drop (mantissa cs).length)
    rw [← List.prefix_append_right_inj (mantissa cs), hcs] at hinitial
    exact ⟨hinitial, .decimal hm hx⟩
  · cases h

theorem any_isDigit_of_isMantissa {m ds fs : List Char} (h : IsMantissa m ds fs) :
    m.any Char.isDigit = true := by
  rw [List.any_eq_true]
  cases h with
  | whole hds hne =>
    obtain ⟨d, ds, rfl⟩ := List.exists_cons_of_ne_nil hne
    exact ⟨d, by simp, hds d (by simp)⟩
  | @point ds fs hds hfs hne =>
    obtain ⟨d, rest, hd⟩ := List.exists_cons_of_ne_nil hne
    have hmem : d ∈ ds ++ fs := by simp [hd]
    exact ⟨d, by rcases List.mem_append.mp hmem with h | h <;> simp [h], hds.append hfs d hmem⟩

/-- A decimal is found with all of what belongs to it. -/
theorem exists_decimal? {m ds fs x : List Char} (hm : IsMantissa m ds fs) (hx : IsExponent x)
    (rest : List Char) : ∃ p, decimal? (m ++ x ++ rest) = some p ∧ m ++ x <+: p := by
  rcases hx.endsMantissa rest with rfl | hends
  · obtain ⟨more, hmore⟩ := isPrefix_mantissa hm rest
    have hdigit : (mantissa (m ++ rest)).any Char.isDigit = true := by
      rw [← hmore, List.any_append, any_isDigit_of_isMantissa hm, Bool.true_or]
    simp only [decimal?, List.append_nil, hdigit, if_true]
    exact ⟨_, rfl, (isPrefix_mantissa hm rest).trans (List.prefix_append ..)⟩
  · rw [List.append_assoc]
    simp only [decimal?, mantissa_append hm hends, any_isDigit_of_isMantissa hm, if_true,
      List.drop_left]
    refine ⟨_, rfl, ?_⟩
    rw [List.prefix_append_right_inj]
    exact isPrefix_exponent hx rest

/-! ## The longest numeral -/

/-- **What the pass finds** is a numeral, and the text begins with it. -/
theorem leading?_spec {cs p : List Char} (h : leading? cs = some p) :
    p <+: cs ∧ (ofChars? p).isSome := by
  obtain ⟨q, hq, rfl⟩ := Option.map_eq_some_iff.mp h
  have hcs := sign_append_drop cs
  generalize cs.drop (sign cs).length = rest at hq hcs
  have hspec : q <+: rest ∧ IsMagnitude q := by
    rcases Option.or_eq_some_iff.mp hq with hword | ⟨-, hdecimal⟩
    · obtain ⟨hinitial, hmem⟩ := word?_spec hword
      exact ⟨hinitial, .word hmem⟩
    · exact decimal?_spec hdecimal
  have hinitial : sign cs ++ q <+: cs := by
    rw [← List.prefix_append_right_inj (sign cs), hcs] at hspec
    exact hspec.1
  have hne : q ≠ [] := by
    rintro rfl
    exact absurd (isSome_magnitude?_iff.mpr hspec.2) (by decide)
  have hsign := sign_of_isPrefix hinitial (by simp [hne])
  exact ⟨hinitial, (isSome_ofChars?_append hsign).mpr hspec.2⟩

/-- All of an unsigned number is found, whatever follows it. -/
theorem exists_of_isMagnitude {body cs : List Char} (h : IsMagnitude body) (hinitial : body <+: cs) :
    ∃ q, (word? words cs).or (decimal? cs) = some q ∧ body <+: q := by
  cases h with
  | word hword =>
    obtain ⟨q, hq, hle⟩ := exists_word? hword hinitial
    refine ⟨q, by rw [hq]; rfl, ?_⟩
    exact List.prefix_of_prefix_length_le hinitial (word?_spec hq).1 hle
  | decimal hm hx =>
    obtain ⟨rest, rfl⟩ := hinitial
    obtain ⟨q, hq, hle⟩ := exists_decimal? hm hx rest
    refine ⟨q, ?_, hle⟩
    rw [hq, List.append_assoc, word?_mantissa hm]
    rfl

/-- **The longest.** If a text begins with a numeral the pass finds one, and
not a shorter one. -/
theorem leading?_longest {cs p : List Char} (hp : p <+: cs) (h : (ofChars? p).isSome) :
    ∃ q, leading? cs = some q ∧ p <+: q := by
  have hne : p ≠ [] := by
    rintro rfl
    cases h
  have hsign : sign p = sign cs := sign_of_isPrefix hp hne
  have hsplit := sign_append_drop p
  have hmagnitude : IsMagnitude (p.drop (sign p).length) := by
    rw [← hsplit] at h
    exact (isSome_ofChars?_append (by rw [hsplit])).mp h
  rw [hsign] at hmagnitude hsplit
  have hbody : p.drop (sign cs).length <+: cs.drop (sign cs).length := by
    rwa [← List.prefix_append_right_inj (sign cs), hsplit, sign_append_drop]
  obtain ⟨q, hq, hle⟩ := exists_of_isMagnitude hmagnitude hbody
  refine ⟨sign cs ++ q, by simp only [leading?, hq]; rfl, ?_⟩
  rw [← hsplit]
  exact (List.prefix_append_right_inj _).mpr hle

theorem isPrefix_of_leading? {cs p q : List Char} (h : leading? cs = some p) (hq : q <+: cs)
    (hsome : (ofChars? q).isSome) : q <+: p := by
  obtain ⟨p', hp', hle⟩ := leading?_longest hq hsome
  rw [h] at hp'
  cases hp'
  exact hle

/-- If the pass finds nothing no initial part is a numeral. -/
theorem ofChars?_of_leading?_none {cs q : List Char} (h : leading? cs = none) (hq : q <+: cs) :
    ofChars? q = none := by
  by_contra hsome
  obtain ⟨p', hp', -⟩ := leading?_longest hq (Option.isSome_iff_ne_none.mpr hsome)
  rw [h] at hp'
  cases hp'

end Scan

/-! ## Reading -/

/-- A text is read by the longest of its initial parts that is a numeral. -/
theorem leading?_of_longest {cs p : List Char} (hp : p <+: cs) (h : (ofChars? p).isSome)
    (hlongest : ∀ q, q <+: cs → (ofChars? q).isSome → q <+: p) : leading? cs = ofChars? p := by
  have hwithin : ∀ n, p.length ≤ n → n ≤ cs.length → leadingWithin? cs n = ofChars? p := by
    intro n hn
    induction n, hn using Nat.le_induction with
    | base =>
      intro _
      cases hlen : p.length with
      | zero =>
        rw [List.length_eq_zero_iff.mp hlen] at h
        cases h
      | succ n =>
        rw [leadingWithin?, ← hlen, ← List.prefix_iff_eq_take.mp hp]
        exact Option.or_of_isSome h
    | succ n hn ih =>
      intro hle
      have hnone : ofChars? (cs.take (n + 1)) = none := by
        by_contra hsome
        have hlt := (hlongest _ (List.take_prefix ..) (Option.isSome_iff_ne_none.mpr hsome)).length_le
        rw [List.length_take, Nat.min_eq_left hle] at hlt
        omega
      rw [leadingWithin?, hnone, Option.none_or, ih (by omega)]
  exact hwithin _ hp.length_le (Nat.le_refl _)

theorem leading?_of_none {cs : List Char} (h : ∀ p, p <+: cs → ofChars? p = none) :
    leading? cs = none := by
  have hwithin : ∀ n, leadingWithin? cs n = none := by
    intro n
    induction n with
    | zero => rfl
    | succ n ih => rw [leadingWithin?, h _ (List.take_prefix ..), ih, Option.none_or]
  exact hwithin _

/-- **One pass is enough.** The longest initial part that is a numeral is the
one that the pass finds. -/
theorem leading?_eq_scan (cs : List Char) : leading? cs = (Scan.leading? cs).bind ofChars? := by
  cases hscan : Scan.leading? cs with
  | some p =>
    obtain ⟨hinitial, hsome⟩ := Scan.leading?_spec hscan
    exact leading?_of_longest hinitial hsome fun q => Scan.isPrefix_of_leading? hscan
  | none => exact leading?_of_none fun p => Scan.ofChars?_of_leading?_none hscan

end Numeral

open Numeral

/-- **Reading in one pass.** A text is read by the one pass: if that finds an
initial part it is a numeral as a whole, the text has the value of that numeral,
as if nothing stood after it, and every other initial part that is a numeral is
shorter. If it finds none no initial part is a numeral, and the text is NaN. -/
theorem read_scan (text : String) :
    match Scan.leading? text.toList with
    | some p =>
      p <+: text.toList ∧
        (∃ n, ofChars? p = some n ∧ NumberText.read text = n.value) ∧
        NumberText.read (String.ofList p) = NumberText.read text ∧
        ∀ q, q <+: text.toList → (ofChars? q).isSome → q <+: p
    | none =>
      (∀ q, q <+: text.toList → ofChars? q = none) ∧ NumberText.read text = Binary64.nan := by
  have hread : NumberText.read text =
      (((Scan.leading? text.toList).bind ofChars?).map Numeral.value).getD Binary64.nan := by
    rw [← leading?_eq_scan]
    rfl
  cases hscan : Scan.leading? text.toList with
  | some p =>
    obtain ⟨hinitial, hsome⟩ := Scan.leading?_spec hscan
    obtain ⟨n, hn⟩ := Option.isSome_iff_exists.mp hsome
    have hvalue : NumberText.read text = n.value := by
      rw [hread, hscan, Option.bind_some, hn]
      rfl
    refine ⟨hinitial, ⟨n, hn, hvalue⟩, ?_, fun q => Scan.isPrefix_of_leading? hscan⟩
    rw [hvalue, NumberText.read, String.toList_ofList, NumberText.readChars,
      leading?_of_ofChars? hn]
    rfl
  | none =>
    refine ⟨fun q => Scan.ofChars?_of_leading?_none hscan, ?_⟩
    rw [hread, hscan]
    rfl

end Keypad
