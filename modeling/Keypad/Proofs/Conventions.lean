/-
What the conventions of the program keep to.

* `tellsAll_conventions`: descriptions of failures tell everything.
* `distinctKeys_format`: no settings file has a key twice.
-/
import Keypad.Program.Conventions
import Keypad.Proofs.DocumentKeys

namespace Keypad.Program

/-! ## Failures -/

theorem indented_of_notMem {text : String} (h : '\n' ∉ text.toList) : indented text = text := by
  have hsame : text.toList.flatMap (fun c => if c = '\n' then c :: "    ".toList else [c]) =
      text.toList.flatMap fun c => [c] :=
    List.flatMap_congr fun c hc => if_neg (ne_of_mem_of_not_mem hc h)
  rw [indented, hsame, List.flatMap_singleton', String.ofList_toList]

/-- **Failures** are told in full. -/
theorem tellsAll_conventions : conventions.TellsAll := by
  intro context cause
  have hdescribe : (conventions.describe context cause).toList =
      context.toList ++ "\n\nCaused by:\n    ".toList ++ (indented cause).toList := by
    show (context ++ "\n\nCaused by:\n    " ++ indented cause).toList = _
    rw [String.toList_append, String.toList_append]
  rw [hdescribe]
  constructor
  · rw [List.append_assoc]
    exact (List.prefix_append _ _).isInfix
  · intro hcause
    rw [indented_of_notMem hcause]
    exact (List.suffix_append _ _).isInfix

/-! ## Settings files -/

/-- **Settings files** give each key one value. -/
theorem Toml.distinctKeys_format : format.DistinctKeys := by
  intro text es hes
  change readSettings text = .ok es at hes
  rw [readSettings] at hes
  split at hes
  · next table htable =>
    cases hes
    have hperm := List.mergeSort_perm
      (table.map fun p => (p.1, p.2.forSettings)) fun a b => decide (a.1 ≤ b.1)
    refine (hperm.map Prod.fst).nodup_iff.mpr ?_
    rw [List.map_map]
    exact Document.nodup_ofText? htable
  · cases hes

end Keypad.Program
