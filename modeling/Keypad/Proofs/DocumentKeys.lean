/-
The keys of a TOML document.

Whatever statements a document has, its table has each key at most once, so
that every key has one value.

* `grows_updateAt`: whatever is changed along a path, the outermost table gets
  a new key or a new value for one.
* `nodup_ofText?`: so the keys of a document are distinct.
-/
import Mathlib.Data.List.Nodup
import Keypad.Program.Toml.Document

namespace Keypad.Program.Toml

namespace Entries

def keys (es : Entries) : List String := es.map Prod.fst

variable {es es' : Entries} {key : String} {v : Value}

theorem notMem_keys_of_lookup (h : es.lookup key = none) : key ∉ es.keys := by
  intro hmem
  obtain ⟨p, hp, rfl⟩ := List.mem_map.mp hmem
  simpa using List.lookup_eq_none_iff.mp h p hp

/-! ## Growing tables -/

/-- The second table is the first one with a key added that was not there, or
with a value in the place of another. -/
inductive Grows (es : Entries) : Entries → Prop
  | added {key : String} (v : Value) : es.lookup key = none → Grows es (es ++ [(key, v)])
  | replaced (key : String) (v : Value) : Grows es (es.replace key v)

theorem Grows.nodup (h : Grows es es') (hn : es.keys.Nodup) : es'.keys.Nodup := by
  cases h with
  | @added key v hnone =>
    have hkeys : Entries.keys (es ++ [(key, v)]) = es.keys.concat key := by simp [keys]
    rw [hkeys, List.nodup_concat]
    exact ⟨notMem_keys_of_lookup hnone, hn⟩
  | replaced key v =>
    have hkeys : (es.replace key v).keys = es.keys := by simp [keys, replace]
    rwa [hkeys]

/-- **Along a path** a table grows, if the table at the end of the path does. -/
theorem grows_updateAt {made : Origin} {change : Origin → Entries → Option Entries}
    (hchange : ∀ origin es es', change origin es = some es' → Grows es es') {path : List String}
    {origin : Origin} (h : updateAt made change path origin es = some es') : Grows es es' := by
  cases path with
  | nil => exact hchange origin es es' h
  | cons key path =>
    rw [updateAt] at h
    split at h
    · next hnone =>
      obtain ⟨sub, -, rfl⟩ := Option.map_eq_some_iff.mp h
      exact .added _ hnone
    · split at h
      · cases h
      · obtain ⟨sub, -, rfl⟩ := Option.map_eq_some_iff.mp h
        exact .replaced _ _
    · obtain ⟨sub, -, rfl⟩ := Option.map_eq_some_iff.mp h
      exact .replaced _ _
    · cases h

variable {path : List String} {fill : Entries → Option Entries}

theorem grows_assign (h : es.assign path key v = some es') : Grows es es' := by
  refine grows_updateAt (fun origin es es' h => ?_) h
  split at h
  · cases h
  · rw [add] at h
    split at h
    · next hnone =>
      cases h
      exact .added v (Option.isNone_iff_eq_none.mp hnone)
    · cases h

theorem grows_openTable (h : es.openTable path key fill = some es') : Grows es es' := by
  refine grows_updateAt (fun origin es es' h => ?_) h
  split at h
  · next hnone =>
    obtain ⟨t, -, rfl⟩ := Option.map_eq_some_iff.mp h
    exact .added _ hnone
  · obtain ⟨t, -, rfl⟩ := Option.map_eq_some_iff.mp h
    exact .replaced _ _
  · cases h

theorem grows_appendTable (h : es.appendTable path key fill = some es') : Grows es es' := by
  refine grows_updateAt (fun origin es es' h => ?_) h
  split at h
  · next hnone =>
    obtain ⟨t, -, rfl⟩ := Option.map_eq_some_iff.mp h
    exact .added _ hnone
  · obtain ⟨t, -, rfl⟩ := Option.map_eq_some_iff.mp h
    exact .replaced _ _
  · cases h

end Entries

/-! ## Documents -/

namespace Document

open Entries

/-- What every step of a fold keeps, the fold keeps. -/
theorem foldlM_keeps {α β : Type} {f : β → α → Option β} {P : β → Prop}
    (hstep : ∀ b a b', f b a = some b' → P b → P b') {xs : List α} {b b' : β}
    (h : xs.foldlM f b = some b') (hb : P b) : P b' := by
  induction xs generalizing b with
  | nil =>
    cases h
    exact hb
  | cons x xs ih =>
    rw [List.foldlM_cons] at h
    obtain ⟨next, hnext, hrest⟩ := Option.bind_eq_some_iff.mp h
    exact ih hrest (hstep _ _ _ hnext hb)

theorem nodup_addPairs {pairs : List Pair} {es es' : Entries} (h : addPairs pairs es = some es')
    (hn : es.keys.Nodup) : es'.keys.Nodup := by
  refine foldlM_keeps (P := fun es : Entries => es.keys.Nodup) (fun es p es' hstep hn => ?_) h hn
  exact (grows_assign hstep).nodup hn

theorem grows_addSection {s : Section} {es es' : Entries} (h : addSection es s = some es') :
    Grows es es' := by
  rw [addSection] at h
  split at h
  · exact grows_appendTable h
  · exact grows_openTable h

/-- **The keys of a document** are distinct. -/
theorem nodup_ofText? {text : String} {es : Entries} (h : ofText? text = some es) :
    es.keys.Nodup := by
  obtain ⟨ss, -, hss⟩ := Option.bind_eq_some_iff.mp h
  obtain ⟨first, hfirst, hsections⟩ := Option.bind_eq_some_iff.mp hss
  have hn : first.keys.Nodup := nodup_addPairs hfirst (List.nodup_nil : ([] : List String).Nodup)
  refine foldlM_keeps (P := fun es : Entries => es.keys.Nodup) (fun es s es' hstep hn => ?_)
    hsections hn
  exact (grows_addSection hstep).nodup hn

end Document

end Keypad.Program.Toml
