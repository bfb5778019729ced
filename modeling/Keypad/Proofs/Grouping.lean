/-
The grouping of a complete expression is what its postfix order evaluates.

* `exists_root`: the link that `Chain.root?` finds takes what stands before it
  and what stands after it as its operands (`IsRoot`).
* `induction_root`: so chains are built up from their roots, as their trees
  are.
* `toPostfix_postorder_group`: reordering lists the tree of a chain in
  postorder, under any table that defines the operators as the chain has them.
-/
import Keypad.Expr.Grouping
import Keypad.Proofs.Reduction

namespace Keypad

theorem OperatorTable.get?_eq_some_iff {table : OperatorTable} {op : Operator} {b : Binding} :
    table.get? op = some b ↔ b.operator = op ∧ table.fixity? op = some b.fixity := by
  obtain ⟨o, f⟩ := b
  simp only [get?, Option.map_eq_some_iff, Binding.mk.injEq]
  constructor
  · rintro ⟨f', hf, rfl, rfl⟩
    exact ⟨rfl, hf⟩
  · rintro ⟨rfl, hf⟩
    exact ⟨f, hf, rfl, rfl⟩

theorem Fixity.yieldsTo_iff {f g : Fixity} : f.yieldsTo g = true ↔
    f.precedence < g.precedence ∨ f.associativity = .left ∧ f.precedence = g.precedence := by
  obtain ⟨a, p⟩ := f
  cases a
  · simp only [yieldsTo, decide_eq_true_eq, true_and, UInt64.le_iff_toNat_le,
      UInt64.lt_iff_toNat_lt, ← UInt64.toNat_inj]
    omega
  · simp [yieldsTo]

/-- An operator and the literal after it. -/
abbrev Link := Binding × String

namespace Chain

/-! ## The operator applied last -/

/-- Between `before` and `after` the operator `b` is applied last: none binds
more loosely, and of those that bind as loosely it is the last
left-associative one or else, if all are right-associative, the first. -/
structure IsRoot (before : List Link) (b : Binding) (after : List Link) : Prop where
  lowest : ∀ l ∈ before ++ after, b.fixity.precedence ≤ l.1.fixity.precedence
  last : b.fixity.associativity = .left →
    ∀ l ∈ after, l.1.fixity.precedence = b.fixity.precedence → l.1.fixity.associativity = .right
  first : b.fixity.associativity = .right →
    (∀ l ∈ before, b.fixity.precedence < l.1.fixity.precedence) ∧
      ∀ l ∈ after, l.1.fixity.precedence = b.fixity.precedence → l.1.fixity.associativity = .right

namespace IsRoot

variable {before after : List Link} {b : Binding}

theorem le_of_mem {text : String} (h : IsRoot before b after) :
    ∀ l ∈ before ++ (b, text) :: after, b.fixity.precedence ≤ l.1.fixity.precedence := by
  intro l hl
  rcases List.mem_append.mp hl with hl | hl
  · exact h.lowest l (List.mem_append_left _ hl)
  · rcases List.mem_cons.mp hl with rfl | hl
    · exact UInt64.le_refl _
    · exact h.lowest l (List.mem_append_right _ hl)

/-- Where operators of one precedence group to one side, a left-associative
root binds more loosely than all operators after it. -/
theorem lt_after (h : IsRoot before b after) (hleft : b.fixity.associativity = .left)
    (hside : ∀ l ∈ after, l.1.fixity.precedence = b.fixity.precedence →
      l.1.fixity.associativity = b.fixity.associativity) :
    ∀ l ∈ after, b.fixity.precedence < l.1.fixity.precedence := by
  intro l hl
  have hle := h.lowest l (List.mem_append_right _ hl)
  refine UInt64.lt_of_le_of_ne hle fun heq => ?_
  have hright := h.last hleft l hl heq.symm
  rw [hside l hl heq.symm, hleft] at hright
  cases hright

/-- The root lets all operators before it take their operands first. -/
theorem yieldsTo_before (h : IsRoot before b after) :
    ∀ l ∈ before, b.fixity.yieldsTo l.1.fixity = true := by
  intro l hl
  have hlow := h.lowest l (List.mem_append_left _ hl)
  rw [Fixity.yieldsTo_iff]
  cases ha : b.fixity.associativity with
  | left =>
    rw [UInt64.le_iff_toNat_le] at hlow
    rw [UInt64.lt_iff_toNat_lt, ← UInt64.toNat_inj]
    simp only [true_and]
    omega
  | right => exact .inl ((h.first ha).1 l hl)

/-- No operator after the root lets the root take its operands first. -/
theorem not_yieldsTo_after (h : IsRoot before b after) :
    ∀ l ∈ after, l.1.fixity.yieldsTo b.fixity = false := by
  intro l hl
  have hlow := h.lowest l (List.mem_append_right _ hl)
  have hright : l.1.fixity.precedence = b.fixity.precedence →
      l.1.fixity.associativity = .right := by
    cases ha : b.fixity.associativity with
    | left => exact h.last ha l hl
    | right => exact (h.first ha).2 l hl
  rw [← Bool.not_eq_true, Fixity.yieldsTo_iff]
  rintro (hlt | ⟨hleft, heq⟩)
  · rw [UInt64.le_iff_toNat_le] at hlow
    rw [UInt64.lt_iff_toNat_lt] at hlt
    omega
  · rw [hright heq] at hleft
    cases hleft

end IsRoot

variable {c : Chain} {i : Nat}

theorem isLowest_iff {f : Fixity} :
    c.isLowest f = true ↔ ∀ l ∈ c.links, f.precedence ≤ l.1.fixity.precedence := by
  simp [isLowest, fixities]

theorem lastLeft?_eq_some (h : c.lastLeft? = some i) :
    ∃ hi : i < c.links.length, (c.isLowest c.links[i].1.fixity = true ∧
      c.links[i].1.fixity.associativity = .left) ∧
      ∀ j (hj : j < c.links.length), i < j → c.isLowest c.links[j].1.fixity = true →
        c.links[j].1.fixity.associativity = .right := by
  obtain ⟨k, hk, rfl⟩ := Option.map_eq_some_iff.mp h
  obtain ⟨hlen, hp, hbefore⟩ := List.findIdx?_eq_some_iff_getElem.mp hk
  simp only [List.length_reverse, fixities, List.length_map] at hlen
  simp only [fixities, List.getElem_reverse, List.getElem_map, List.length_map, Bool.and_eq_true,
    beq_iff_eq] at hp hbefore
  refine ⟨by omega, hp, fun j hj hij hlow => ?_⟩
  have hnot := hbefore (c.links.length - 1 - j) (by omega)
  have hidx : c.links.length - 1 - (c.links.length - 1 - j) = j := by omega
  simp only [hidx, hlow, true_and] at hnot
  cases ha : c.links[j].1.fixity.associativity with
  | left => exact absurd ha hnot
  | right => rfl

theorem lastLeft?_eq_none (h : c.lastLeft? = none) :
    ∀ l ∈ c.links, c.isLowest l.1.fixity = true → l.1.fixity.associativity = .right := by
  intro l hl hlow
  have hnot := List.findIdx?_eq_none_iff.mp (Option.map_eq_none_iff.mp h) l.1.fixity
    (List.mem_reverse.mpr (List.mem_map_of_mem hl))
  cases ha : l.1.fixity.associativity with
  | left => simp [hlow, ha] at hnot
  | right => rfl

theorem firstLowest?_eq_some (h : c.firstLowest? = some i) :
    ∃ hi : i < c.links.length, c.isLowest c.links[i].1.fixity = true ∧
      ∀ j (hj : j < c.links.length), j < i → c.isLowest c.links[j].1.fixity = false := by
  obtain ⟨hlen, hp, hbefore⟩ := List.findIdx?_eq_some_iff_getElem.mp h
  simp only [fixities, List.length_map] at hlen
  simp only [fixities, List.getElem_map, Bool.not_eq_true] at hp hbefore
  exact ⟨hlen, hp, fun j _ hji => hbefore j hji⟩

/-- The operator that binds most loosely exists. -/
theorem exists_lowest : ∀ {links : List Link}, links ≠ [] →
    ∃ l ∈ links, ∀ l' ∈ links, l.1.fixity.precedence ≤ l'.1.fixity.precedence
  | [l], _ => ⟨l, by simp, by simp⟩
  | l :: l' :: links, _ => by
    obtain ⟨m, hm, hlow⟩ := @exists_lowest (l' :: links) (by simp)
    rcases UInt64.le_total l.1.fixity.precedence m.1.fixity.precedence with hle | hle
    · refine ⟨l, by simp, fun k hk => ?_⟩
      rcases List.mem_cons.mp hk with rfl | hk
      · exact UInt64.le_refl _
      · exact UInt64.le_trans hle (hlow k hk)
    · refine ⟨m, List.mem_cons_of_mem _ hm, fun k hk => ?_⟩
      rcases List.mem_cons.mp hk with rfl | hk
      · exact hle
      · exact hlow k hk

theorem exists_root?_eq_some (h : c.links ≠ []) : ∃ i, c.root? = some i := by
  obtain ⟨l, hl, hlow⟩ := exists_lowest h
  have hfirst : c.firstLowest? ≠ none := by
    intro hnone
    have hnot := List.findIdx?_eq_none_iff.mp hnone l.1.fixity (List.mem_map_of_mem hl)
    rw [isLowest_iff.mpr hlow] at hnot
    cases hnot
  obtain ⟨k, hk⟩ := Option.ne_none_iff_exists'.mp hfirst
  rw [root?, hk]
  cases c.lastLeft? with
  | none => exact ⟨k, rfl⟩
  | some j => exact ⟨j, rfl⟩

theorem isRoot_of_root? (h : c.root? = some i) :
    ∃ hi : i < c.links.length, IsRoot (c.links.take i) c.links[i].1 (c.links.drop (i + 1)) := by
  have hsub : ∀ l ∈ c.links.take i ++ c.links.drop (i + 1), l ∈ c.links := by
    intro l hl
    rcases List.mem_append.mp hl with hl | hl
    · exact List.mem_of_mem_take hl
    · exact List.mem_of_mem_drop hl
  -- What binds as loosely as a lowest operator is lowest itself.
  have heq : ∀ {f g : Fixity}, c.isLowest f = true → g.precedence = f.precedence →
      c.isLowest g = true := fun hf hp => by
    rw [isLowest_iff] at hf ⊢
    rwa [hp]
  rw [root?] at h
  cases hlast : c.lastLeft? with
  | some j =>
    rw [hlast] at h
    cases h
    obtain ⟨hi, ⟨hlow, hleft⟩, hafter⟩ := lastLeft?_eq_some hlast
    refine ⟨hi, fun l hl => isLowest_iff.mp hlow l (hsub l hl), fun _ l hl hp => ?_,
      fun hright => ?_⟩
    · obtain ⟨m, hm, rfl⟩ := List.mem_drop_iff_getElem.mp hl
      exact hafter _ _ (by omega) (heq hlow hp)
    · rw [hleft] at hright
      cases hright
  | none =>
    rw [hlast] at h
    obtain ⟨hi, hlow, hbefore⟩ := firstLowest?_eq_some h
    have hright := lastLeft?_eq_none hlast
    refine ⟨hi, fun l hl => isLowest_iff.mp hlow l (hsub l hl), fun hleft => ?_, fun _ => ⟨?_, ?_⟩⟩
    · rw [hright _ (List.getElem_mem hi) hlow] at hleft
      cases hleft
    · intro l hl
      have hle := isLowest_iff.mp hlow l (List.mem_of_mem_take hl)
      obtain ⟨m, hm, rfl⟩ := List.mem_take_iff_getElem.mp hl
      have hnot := hbefore m (by omega) (by omega)
      refine UInt64.lt_of_le_of_ne hle fun hp => ?_
      rw [heq hlow hp.symm] at hnot
      cases hnot
    · exact fun l hl hp => hright l (List.mem_of_mem_drop hl) (heq hlow hp)

/-- **Every expression with an operator has a root**, which `root?` finds. -/
theorem exists_root {first : String} {links : List Link} (h : links ≠ []) :
    ∃ before b text after, links = before ++ (b, text) :: after ∧ IsRoot before b after ∧
      root? ⟨first, links⟩ = some before.length := by
  obtain ⟨i, hi⟩ := @exists_root?_eq_some ⟨first, links⟩ h
  obtain ⟨hlen, hroot⟩ := isRoot_of_root? hi
  refine ⟨links.take i, links[i].1, links[i].2, links.drop (i + 1), ?_, hroot, ?_⟩
  · rw [← List.drop_eq_getElem_cons hlen, List.take_append_drop]
  · rw [List.length_take_of_le (Nat.le_of_lt hlen), hi]

/-! ## Grouping -/

theorem groupWithin_literal (n : Nat) (first : String) :
    groupWithin n ⟨first, []⟩ = .literal first := by
  cases n <;> rfl

theorem groupWithin_node {first text : String} {before after : List Link} {b : Binding} (n : Nat)
    (h : root? ⟨first, before ++ (b, text) :: after⟩ = some before.length) :
    groupWithin (n + 1) ⟨first, before ++ (b, text) :: after⟩ =
      .node b.operator (groupWithin n ⟨first, before⟩) (groupWithin n ⟨text, after⟩) := by
  simp [groupWithin, h]

theorem length_split (before after : List Link) (l : Link) :
    (before ++ l :: after).length = before.length + after.length + 1 := by
  rw [List.length_append, List.length_cons, Nat.add_assoc]

/-- The bound on the links does not matter once it is large enough. -/
theorem groupWithin_congr : ∀ {n m : Nat} {c : Chain}, c.links.length ≤ n → c.links.length ≤ m →
    groupWithin n c = groupWithin m c
  | n, m, ⟨first, []⟩, _, _ => by rw [groupWithin_literal, groupWithin_literal]
  | 0, _, ⟨_, _ :: _⟩, hn, _ => absurd hn (by simp)
  | _ + 1, 0, ⟨_, _ :: _⟩, _, hm => absurd hm (by simp)
  | n + 1, m + 1, ⟨first, l :: links⟩, hn, hm => by
    obtain ⟨before, b, text, after, hsplit, -, hi⟩ := @exists_root first (l :: links) (by simp)
    rw [hsplit] at hn hm hi ⊢
    rw [length_split] at hn hm
    have hbefore : groupWithin n ⟨first, before⟩ = groupWithin m ⟨first, before⟩ :=
      groupWithin_congr (show before.length ≤ n by omega) (show before.length ≤ m by omega)
    have hafter : groupWithin n ⟨text, after⟩ = groupWithin m ⟨text, after⟩ :=
      groupWithin_congr (show after.length ≤ n by omega) (show after.length ≤ m by omega)
    rw [groupWithin_node n hi, groupWithin_node m hi, hbefore, hafter]

/-- The root of a chain is the root of its tree, between the trees of what
stands before it and of what stands after it. -/
theorem group_node {first text : String} {before after : List Link} {b : Binding}
    (h : root? ⟨first, before ++ (b, text) :: after⟩ = some before.length) :
    group ⟨first, before ++ (b, text) :: after⟩ =
      .node b.operator (group ⟨first, before⟩) (group ⟨text, after⟩) := by
  unfold group
  simp only [length_split]
  have hbefore : groupWithin (before.length + after.length) ⟨first, before⟩ =
      groupWithin before.length ⟨first, before⟩ :=
    groupWithin_congr (Nat.le_add_right ..) (Nat.le_refl _)
  have hafter : groupWithin (before.length + after.length) ⟨text, after⟩ =
      groupWithin after.length ⟨text, after⟩ :=
    groupWithin_congr (Nat.le_add_left ..) (Nat.le_refl _)
  rw [groupWithin_node _ h, hbefore, hafter]

/-- **Induction by roots.** What holds of literals, and of a chain if it holds
of what stands before its root and of what stands after it, holds of every
chain. -/
theorem induction_root {P : Chain → Prop} (literal : ∀ first, P ⟨first, []⟩)
    (node : ∀ first before b text after, IsRoot before b after →
      root? ⟨first, before ++ (b, text) :: after⟩ = some before.length →
      P ⟨first, before⟩ → P ⟨text, after⟩ → P ⟨first, before ++ (b, text) :: after⟩)
    (c : Chain) : P c := by
  obtain ⟨first, links⟩ := c
  induction hn : links.length using Nat.strongRecOn generalizing first links with
  | ind n ih =>
    subst hn
    by_cases h : links = []
    · subst h
      exact literal first
    · obtain ⟨before, b, text, after, rfl, hroot, hi⟩ := @exists_root first links h
      have hlen := length_split before after (b, text)
      exact node first before b text after hroot hi (ih _ (by omega) first before rfl)
        (ih _ (by omega) text after rfl)

/-! ## The postfix order of a chain -/

theorem tokens_node (first text : String) (before after : List Link) (b : Binding) :
    tokens ⟨first, before ++ (b, text) :: after⟩ =
      tokens ⟨first, before⟩ ++ .operator b.operator :: tokens ⟨text, after⟩ := by
  simp [tokens]

@[simp] theorem operators_tokens (c : Chain) :
    operators c.tokens = c.links.map fun l => l.1.operator := by
  obtain ⟨first, links⟩ := c
  simp only [tokens, operators_number]
  induction links with
  | nil => rfl
  | cons l links ih => simpa [List.flatMap_cons] using ih

/-- A table defines the operators of a chain as the chain has them. -/
def DefinedBy (c : Chain) (table : OperatorTable) : Prop :=
  ∀ l ∈ c.links, table.get? l.1.operator = some l.1

theorem DefinedBy.fixity? {table : OperatorTable} (h : c.DefinedBy table) {l : Link}
    (hl : l ∈ c.links) : table.fixity? l.1.operator = some l.1.fixity :=
  (OperatorTable.get?_eq_some_iff.mp (h l hl)).2

/-- Every operator of a chain is the one that its table gives. -/
theorem DefinedBy.of_mem_operators {table : OperatorTable} (h : c.DefinedBy table) {op : Operator}
    {f : Fixity} (hop : op ∈ operators c.tokens) (hf : table.fixity? op = some f) :
    ∃ l ∈ c.links, l.1.fixity = f := by
  rw [operators_tokens, List.mem_map] at hop
  obtain ⟨l, hl, rfl⟩ := hop
  rw [h.fixity? hl] at hf
  exact ⟨l, hl, Option.some.inj hf⟩

theorem DefinedBy.node {table : OperatorTable} {first text : String} {before after : List Link}
    {b : Binding} (h : DefinedBy ⟨first, before ++ (b, text) :: after⟩ table) :
    DefinedBy ⟨first, before⟩ table ∧ table.fixity? b.operator = some b.fixity ∧
      DefinedBy ⟨text, after⟩ table :=
  ⟨fun l hl => h l (List.mem_append_left _ hl), h.fixity? (l := (b, text)) (by simp),
    fun l hl => h l (List.mem_append_right _ (List.mem_cons_of_mem _ hl))⟩

theorem inorder_group (c : Chain) : c.group.inorder = c.tokens := by
  induction c using induction_root with
  | literal first => rfl
  | node first before b text after _ hi ihb iha =>
    rw [group_node hi, tokens_node, Expr.inorder, ihb, iha]

/-- The root of a chain comes last in postfix order, also if not all of what
stands after it has been read. -/
theorem toPostfix_root {table : OperatorTable} {first text : String} {before after : List Link}
    {b : Binding} {ys p q : List Token} (hroot : IsRoot before b after)
    (h : DefinedBy ⟨first, before ++ (b, text) :: after⟩ table)
    (hys : ∀ op ∈ operators ys, op ∈ operators (tokens ⟨text, after⟩))
    (hp : toPostfix table (tokens ⟨first, before⟩) = .ok p) (hq : toPostfix table ys = .ok q) :
    toPostfix table (tokens ⟨first, before⟩ ++ .operator b.operator :: ys) =
      .ok (p ++ q ++ [.operator b.operator]) := by
  obtain ⟨hb, hf, ha⟩ := h.node
  refine toPostfix_split hf ?_ ?_ hp hq
  · intro o ho g hg
    obtain ⟨l, hl, rfl⟩ := hb.of_mem_operators ho hg
    exact hroot.yieldsTo_before l hl
  · intro o ho g hg
    obtain ⟨l, hl, rfl⟩ := ha.of_mem_operators (hys o ho) hg
    exact hroot.not_yieldsTo_after l hl

/-- **Reordering groups.** The postfix order of a chain is the postorder of
its tree. -/
theorem toPostfix_postorder_group {table : OperatorTable} {c : Chain} (h : c.DefinedBy table) :
    toPostfix table c.tokens = .ok c.group.postorder := by
  induction c using induction_root with
  | literal first => rfl
  | node first before b text after hroot hi ihb iha =>
    obtain ⟨hb, -, ha⟩ := h.node
    rw [group_node hi, tokens_node, Expr.postorder]
    exact toPostfix_root hroot h (fun _ ho => ho) (ihb hb) (iha ha)

theorem evaluate_value_group {table : OperatorTable} {c : Chain} (h : c.DefinedBy table) :
    evaluate table c.tokens = .ok c.group.value := by
  simp only [evaluate, toPostfix_postorder_group h, reduce_postorder]
  rfl

/-- **Evaluation goes by precedence and associativity alone.** Under a table
that defines the operators of a complete expression, the expression is
reordered to the postorder of its grouping and evaluated to the value of its
grouping. That tree is the only one listed so, and read in order it gives the
expression back. -/
theorem evaluate_eq_group (table : OperatorTable) (c : Chain) (h : c.DefinedBy table) :
    toPostfix table c.tokens = .ok c.group.postorder ∧
      evaluate table c.tokens = .ok c.group.value ∧
      ∀ t : Expr, toPostfix table c.tokens = .ok t.postorder →
        t = c.group ∧ t.inorder = c.tokens := by
  have hpost := toPostfix_postorder_group h
  refine ⟨hpost, evaluate_value_group h, fun t ht => ?_⟩
  rw [hpost] at ht
  obtain rfl := Expr.postorder_injective (Except.ok.inj ht)
  exact ⟨rfl, inorder_group c⟩

/-- Two operators of one precedence that group to different sides, around one
that binds tighter: `9 - 4 + 3 * 2 - 1` is `(9 - 4) + ((3 * 2) - 1)`. -/
theorem evaluate_eq_group_mixed :
    let table :=
      OperatorTable.ofList [⟨.plus, .left, 1⟩, ⟨.minus, .right, 1⟩, ⟨.times, .left, 2⟩]
    let c : Chain := ⟨"9", [(⟨.minus, .right, 1⟩, "4"), (⟨.plus, .left, 1⟩, "3"),
      (⟨.times, .left, 2⟩, "2"), (⟨.minus, .right, 1⟩, "1")]⟩
    c.DefinedBy table ∧ toPostfix table c.tokens = .ok [.number "9", .number "4", .operator .minus,
      .number "3", .number "2", .operator .times, .number "1", .operator .minus, .operator .plus] := by
  intro table c
  have h : c.DefinedBy table := by
    unfold DefinedBy
    decide
  exact ⟨h, (evaluate_eq_group table c h).1.trans (by decide)⟩

end Chain

end Keypad
