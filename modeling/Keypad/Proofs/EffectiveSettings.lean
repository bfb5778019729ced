/-
Where the settings of a run come from, and that it does not matter where.

A document gives settings if it has no keys but theirs, with values of the right
types. The arguments can replace the error marker and can switch the reports of
postfix orders on. A run depends on its file and its options by the settings
that come out of them only, unless the file gives none: then it fails before it
does anything else. All of this holds for any format of documents in which no
key comes twice.

* `ofEntries_eq_ok_iff`: the settings of a table.
* `ofText_eq_ok_iff`: the settings of a text.
* `resolveSettings_eq_ok_iff`: the settings of a run.
* `run_settings`: runs and their settings.
-/
import Keypad.Proofs.Conventions

namespace Keypad

namespace Settings

/-! ## Tables -/

namespace Entries

def keys (es : Entries) : List String := es.map Prod.fst

/-- A table gives a key the value `x`, of the type that `wrap` makes a value of;
if it does not have the key, then `x` is the one from before. -/
def Gives {α : Type} (es : Entries) (key : String) (wrap : α → Value) (before x : α) : Prop :=
  es.lookup key = some (wrap x) ∨ es.lookup key = none ∧ x = before

variable {α : Type} {es : Entries} {key k : String} {wrap : α → Value} {before x : α} {v : Value}

theorem gives_of_notMem (h : key ∉ es.keys) : es.Gives key wrap before x ↔ x = before := by
  have hnone : es.lookup key = none := by
    rw [List.lookup_eq_none_iff]
    intro p hp
    have hne : key ≠ p.1 := fun heq => h (heq ▸ List.mem_map_of_mem hp)
    simpa using hne
  simp [Gives, hnone]

theorem gives_cons_self :
    Gives ((key, v) :: es) key wrap before x ↔ v = wrap x := by
  simp [Gives]

theorem gives_cons_of_ne (h : key ≠ k) :
    Gives ((k, v) :: es) key wrap before x ↔ es.Gives key wrap before x := by
  have hbeq : (key == k) = false := by simpa using h
  simp [Gives, List.lookup_cons, hbeq]

/-- Some value is given exactly if the key does not have one of another type. -/
theorem exists_gives_iff : (∃ x, es.Gives key wrap before x) ↔
    ∀ v, es.lookup key = some v → ∃ x, v = wrap x := by
  constructor
  · rintro ⟨x, hx | ⟨hnone, -⟩⟩ v hv
    · exact ⟨x, Option.some.inj (hv.symm.trans hx)⟩
    · rw [hnone] at hv
      cases hv
  · intro h
    cases hv : es.lookup key with
    | none => exact ⟨before, .inr ⟨hv, rfl⟩⟩
    | some v =>
      obtain ⟨x, rfl⟩ := h v hv
      exact ⟨x, .inl hv⟩

end Entries

/-- No key but those of settings. -/
def KnownKeys (es : Entries) : Prop := ∀ key ∈ es.keys, key = "error_marker" ∨ key = "show_postfix"

/-- Settings are those of a table, with the settings from before for the keys
that it does not have. -/
structure Describes (before : Settings) (es : Entries) (s : Settings) : Prop where
  known : KnownKeys es
  errorMarker : es.Gives "error_marker" .string before.errorMarker s.errorMarker
  showPostfix : es.Gives "show_postfix" .boolean before.showPostfix s.showPostfix

/-- A table of settings: no other keys, and values of the right types. -/
structure IsSettings (es : Entries) : Prop where
  known : KnownKeys es
  errorMarker : ∀ v, es.lookup "error_marker" = some v → ∃ text, v = .string text
  showPostfix : ∀ v, es.lookup "show_postfix" = some v → ∃ b, v = .boolean b

theorem exists_describes_iff (before : Settings) {es : Entries} :
    (∃ s, Describes before es s) ↔ IsSettings es := by
  constructor
  · rintro ⟨s, h⟩
    exact ⟨h.known, Entries.exists_gives_iff.mp ⟨_, h.errorMarker⟩,
      Entries.exists_gives_iff.mp ⟨_, h.showPostfix⟩⟩
  · intro h
    obtain ⟨text, htext⟩ := Entries.exists_gives_iff.mpr h.errorMarker
    obtain ⟨b, hb⟩ := Entries.exists_gives_iff.mpr h.showPostfix
    exact ⟨⟨text, b⟩, h.known, htext, hb⟩

/-! ## One entry after the other -/

theorem set_eq_ok_iff {s s' : Settings} {key : String} {v : Value} :
    s.set (key, v) = .ok s' ↔
      (key = "error_marker" ∧ ∃ text, v = .string text ∧ s' = { s with errorMarker := text }) ∨
        key = "show_postfix" ∧ ∃ b, v = .boolean b ∧ s' = { s with showPostfix := b } := by
  unfold set
  split
  · next text heq =>
    cases heq
    simp [eq_comm]
  · next hne heq =>
    cases heq
    refine iff_of_false (by simp) ?_
    rintro (⟨-, text, rfl, -⟩ | ⟨hkey, -⟩)
    · exact hne text rfl
    · simp at hkey
  · next b heq =>
    cases heq
    simp [eq_comm]
  · next hne heq =>
    cases heq
    refine iff_of_false (by simp) ?_
    rintro (⟨hkey, -⟩ | ⟨-, b, rfl, -⟩)
    · simp at hkey
    · exact hne b rfl
  · next hmarker _ hpostfix heq =>
    cases heq
    refine iff_of_false (by simp) ?_
    rintro (⟨hkey, -⟩ | ⟨hkey, -⟩)
    · exact hmarker hkey
    · exact hpostfix hkey

section

variable {before s : Settings} {es : Entries} {v : Value}

theorem describes_nil : Describes before [] s ↔ s = before := by
  constructor
  · intro h
    have hmarker := (Entries.gives_of_notMem (by simp [Entries.keys])).mp h.errorMarker
    have hpostfix := (Entries.gives_of_notMem (by simp [Entries.keys])).mp h.showPostfix
    cases s
    cases before
    simp_all
  · rintro rfl
    exact ⟨by simp [KnownKeys, Entries.keys], .inr ⟨rfl, rfl⟩, .inr ⟨rfl, rfl⟩⟩

theorem knownKeys_cons {key : String} : KnownKeys ((key, v) :: es) ↔
    (key = "error_marker" ∨ key = "show_postfix") ∧ KnownKeys es :=
  List.forall_mem_cons

theorem describes_cons_errorMarker (hkey : "error_marker" ∉ es.keys) :
    Describes before (("error_marker", v) :: es) s ↔
      ∃ text, v = .string text ∧ Describes { before with errorMarker := text } es s := by
  constructor
  · intro h
    refine ⟨s.errorMarker, Entries.gives_cons_self.mp h.errorMarker,
      (knownKeys_cons.mp h.known).2, (Entries.gives_of_notMem hkey).mpr rfl, ?_⟩
    exact (Entries.gives_cons_of_ne (by decide)).mp h.showPostfix
  · rintro ⟨text, rfl, h⟩
    have hmarker : s.errorMarker = text := (Entries.gives_of_notMem hkey).mp h.errorMarker
    refine ⟨knownKeys_cons.mpr ⟨.inl rfl, h.known⟩, ?_, ?_⟩
    · rw [Entries.gives_cons_self, hmarker]
    · exact (Entries.gives_cons_of_ne (by decide)).mpr h.showPostfix

theorem describes_cons_showPostfix (hkey : "show_postfix" ∉ es.keys) :
    Describes before (("show_postfix", v) :: es) s ↔
      ∃ b, v = .boolean b ∧ Describes { before with showPostfix := b } es s := by
  constructor
  · intro h
    refine ⟨s.showPostfix, Entries.gives_cons_self.mp h.showPostfix,
      (knownKeys_cons.mp h.known).2, ?_, (Entries.gives_of_notMem hkey).mpr rfl⟩
    exact (Entries.gives_cons_of_ne (by decide)).mp h.errorMarker
  · rintro ⟨b, rfl, h⟩
    have hpostfix : s.showPostfix = b := (Entries.gives_of_notMem hkey).mp h.showPostfix
    refine ⟨knownKeys_cons.mpr ⟨.inr rfl, h.known⟩, ?_, ?_⟩
    · exact (Entries.gives_cons_of_ne (by decide)).mpr h.errorMarker
    · rw [Entries.gives_cons_self, hpostfix]

end

/-- Entries with distinct keys, set one after the other, change settings to
those they describe. -/
theorem foldlM_set_eq_ok_iff {before s : Settings} {es : Entries} (hn : es.keys.Nodup) :
    es.foldlM set before = .ok s ↔ Describes before es s := by
  induction es generalizing before with
  | nil => simp [describes_nil, pure, Except.pure, eq_comm]
  | cons p es ih =>
    obtain ⟨key, v⟩ := p
    obtain ⟨hkey, hes⟩ := List.nodup_cons.mp hn
    have hrun : List.foldlM set before ((key, v) :: es) = .ok s ↔
        ∃ next, before.set (key, v) = .ok next ∧ Describes next es s := by
      rw [List.foldlM_cons]
      cases before.set (key, v) with
      | error e => simp [bind, Except.bind]
      | ok next => simp [bind, Except.bind, ih hes]
    rw [hrun]
    constructor
    · rintro ⟨next, hset, h⟩
      rcases set_eq_ok_iff.mp hset with ⟨rfl, text, rfl, rfl⟩ | ⟨rfl, b, rfl, rfl⟩
      · exact (describes_cons_errorMarker hkey).mpr ⟨text, rfl, h⟩
      · exact (describes_cons_showPostfix hkey).mpr ⟨b, rfl, h⟩
    · intro h
      rcases (knownKeys_cons.mp h.known).1 with rfl | rfl
      · obtain ⟨text, rfl, hrest⟩ := (describes_cons_errorMarker hkey).mp h
        exact ⟨_, set_eq_ok_iff.mpr (.inl ⟨rfl, text, rfl, rfl⟩), hrest⟩
      · obtain ⟨b, rfl, hrest⟩ := (describes_cons_showPostfix hkey).mp h
        exact ⟨_, set_eq_ok_iff.mpr (.inr ⟨rfl, b, rfl, rfl⟩), hrest⟩

/-- **The settings of a table** with distinct keys. -/
theorem ofEntries_eq_ok_iff {s : Settings} {es : Entries} (hn : es.keys.Nodup) :
    ofEntries es = .ok s ↔ Describes .default es s :=
  foldlM_set_eq_ok_iff hn

variable {format : Format}

/-- **The settings of a text**: it is a document, and they are those of its
table. -/
theorem ofText_eq_ok_iff (hdistinct : format.DistinctKeys) {text : String} {s : Settings} :
    ofText format text = .ok s ↔ ∃ es, format.read text = .ok es ∧ Describes .default es s := by
  unfold ofText
  cases h : format.read text with
  | error why => simp
  | ok es => simp [ofEntries_eq_ok_iff (hdistinct text es h)]

/-! ## Files -/

/-- A file gives settings: it is the text of a document that describes them. -/
def FileGives (format : Format) (content : Except ReadError (List UInt8)) (s : Settings) : Prop :=
  ∃ bytes text es, content = .ok bytes ∧ Text.ofBytes? bytes = some text ∧
    format.read text = .ok es ∧ Describes .default es s

/-- Why a file gives no settings. -/
inductive FileRejected (format : Format) : Except ReadError (List UInt8) → Prop
  | unreadable (e : ReadError) : FileRejected format (.error e)
  | notText {bytes : List UInt8} : Text.ofBytes? bytes = none → FileRejected format (.ok bytes)
  | malformed {bytes : List UInt8} {text why : String} : Text.ofBytes? bytes = some text →
      format.read text = .error why → FileRejected format (.ok bytes)
  | unfit {bytes : List UInt8} {text : String} {es : Entries} : Text.ofBytes? bytes = some text →
      format.read text = .ok es → ¬ IsSettings es → FileRejected format (.ok bytes)

section

variable {content : Except ReadError (List UInt8)} {bytes : List UInt8} {text : String}
  {s : Settings}

/-- A file of text gives the settings of the text. -/
theorem fileGives_of_text (htext : Text.ofBytes? bytes = some text) :
    FileGives format (.ok bytes) s ↔ ∃ es, format.read text = .ok es ∧ Describes .default es s := by
  simp [FileGives, htext]

theorem not_fileGives_error (e : ReadError) : ¬ FileGives format (.error e) s := by
  simp [FileGives]

theorem not_fileGives_of_notText (hnone : Text.ofBytes? bytes = none) :
    ¬ FileGives format (.ok bytes) s := by
  simp [FileGives, hnone]

theorem ofFile_eq_ok_iff (hdistinct : format.DistinctKeys) (path : Path) :
    ofFile format path content = .ok s ↔ FileGives format content s := by
  unfold ofFile
  cases content with
  | error e => simp [not_fileGives_error]
  | ok bytes =>
    cases htext : Text.ofBytes? bytes with
    | none => simp [htext, not_fileGives_of_notText htext]
    | some text =>
      have hmap : ∀ wrap : DocumentError → FileError,
          (ofText format text).mapError wrap = .ok s ↔ ofText format text = .ok s := fun wrap => by
        cases ofText format text <;> simp [Except.mapError]
      simp [htext, hmap, fileGives_of_text htext, ofText_eq_ok_iff hdistinct]

theorem FileRejected.not_gives (h : FileRejected format content) : ¬ FileGives format content s := by
  cases h with
  | unreadable e => exact not_fileGives_error e
  | notText hnone => exact not_fileGives_of_notText hnone
  | malformed htext hwhy => simp [fileGives_of_text htext, hwhy]
  | unfit htext hes hunfit =>
    rw [fileGives_of_text htext]
    rintro ⟨es', hes', hs⟩
    cases hes.symm.trans hes'
    exact hunfit ((exists_describes_iff .default).mp ⟨s, hs⟩)

end

/-- A file gives no settings for one of these reasons, or it gives some. -/
theorem fileRejected_iff (hdistinct : format.DistinctKeys) (path : Path)
    {content : Except ReadError (List UInt8)} :
    FileRejected format content ↔ ∃ e, ofFile format path content = .error e := by
  constructor
  · intro h
    cases hfile : ofFile format path content with
    | error e => exact ⟨e, rfl⟩
    | ok s => exact absurd ((ofFile_eq_ok_iff hdistinct path).mp hfile) h.not_gives
  · rintro ⟨e, he⟩
    have hnone : ∀ s, ¬ FileGives format content s := fun s hs => by
      rw [(ofFile_eq_ok_iff hdistinct path).mpr hs] at he
      cases he
    cases content with
    | error e => exact .unreadable e
    | ok bytes =>
      cases htext : Text.ofBytes? bytes with
      | none => exact .notText htext
      | some text =>
        cases hes : format.read text with
        | error why => exact .malformed htext hes
        | ok es =>
          refine .unfit htext hes fun h => ?_
          obtain ⟨s, hs⟩ := (exists_describes_iff .default).mpr h
          exact hnone s ((fileGives_of_text htext).mpr ⟨es, hes, hs⟩)

end Settings

/-! ## Runs -/

namespace CommandLine

open Settings (Describes FileGives FileRejected IsSettings)

/-- The settings of a run: those of its file, or the default ones if it has no
file, with the error marker of the arguments if they have one, and with postfix
orders reported if the arguments or the file ask for it. -/
def Effective (format : Settings.Format) (o : Options)
    (readFile : Path → Except ReadError (List UInt8)) (settings : Settings) : Prop :=
  ∃ base,
    (o.config = none ∧ base = .default ∨
      ∃ path, o.config = some path ∧ FileGives format (readFile path) base) ∧
    settings.errorMarker = o.errorMarker.getD base.errorMarker ∧
    (settings.showPostfix = true ↔ o.showPostfix = true ∨ base.showPostfix = true)

variable {v : Conventions} {o o' : Options} {s s' : Surroundings} {settings : Settings}

/-- **The settings of a run** are found by `resolveSettings`. -/
theorem resolveSettings_eq_ok_iff {format : Settings.Format} (hdistinct : format.DistinctKeys)
    {readFile : Path → Except ReadError (List UInt8)} :
    resolveSettings format o readFile = .ok settings ↔ Effective format o readFile settings := by
  have hcombine : ∀ base : Settings,
      (⟨o.errorMarker.getD base.errorMarker, base.showPostfix || o.showPostfix⟩ = settings ↔
        settings.errorMarker = o.errorMarker.getD base.errorMarker ∧
          (settings.showPostfix = true ↔ o.showPostfix = true ∨ base.showPostfix = true)) := by
    intro base
    obtain ⟨marker, shown⟩ := settings
    cases shown <;> cases hbase : base.showPostfix <;> cases ho : o.showPostfix <;> simp [eq_comm]
  unfold resolveSettings Effective
  cases o.config with
  | none => simp [← hcombine, pure, Except.pure, bind, Except.bind]
  | some path =>
    simp only [← hcombine, ← Settings.ofFile_eq_ok_iff hdistinct path]
    cases hfile : Settings.ofFile format path (readFile path) <;>
      simp [hfile, pure, Except.pure, bind, Except.bind]

/-- A run asks its file and its options for nothing but settings. -/
theorem runOptions_congr (h : resolveSettings v.format o s.readFile = .ok settings)
    (h' : resolveSettings v.format o' s'.readFile = .ok settings)
    (hfilter : resolveFilter v o s.logVariable = resolveFilter v o' s'.logVariable)
    (hkeys : o.keys = o'.keys) (hinput : s.input = s'.input) :
    runOptions v s o = runOptions v s' o' := by
  simp only [runOptions, h, h', hfilter, hkeys, hinput]

theorem runOptions_of_fileRejected (hdistinct : v.format.DistinctKeys) {path : Path}
    (hpath : o.config = some path) (h : FileRejected v.format (s.readFile path)) :
    ∃ e, Settings.ofFile v.format path (s.readFile path) = .error e ∧
      runOptions v s o = ⟨1, "", v.report (.settings e)⟩ := by
  obtain ⟨e, he⟩ := (Settings.fileRejected_iff hdistinct path).mp h
  have hresolve : resolveSettings v.format o s.readFile = .error e := by
    simp only [resolveSettings, hpath, he]
    rfl
  exact ⟨e, he, by simp only [runOptions, hresolve, Ending.ofFailure]⟩

/-- **Settings and runs.** A text gives settings exactly if it is a document
that has no other keys, a string for the error marker if it has that key, and a
boolean for the reports of postfix orders if it has that one; what it has no key
for keeps the default. A run has the error marker of its arguments if they give
one, else that of its file, else the default one, and it reports postfix orders
if its arguments or its file ask for it. Two runs with the same settings, the
same events to log, the same keystrokes in their arguments and the same input
print the same and exit with the same code, wherever the settings come from. A
run whose file cannot be read, is not text or gives no settings prints nothing
but a report about the file, whatever else its arguments say and whatever its
input is. -/
theorem run_settings (v : Conventions) (hdistinct : v.format.DistinctKeys)
    (s s' : Surroundings) (args args' : List Argument) (o o' : Options)
    (hargs : v.arguments args = .ok (.run o)) (hargs' : v.arguments args' = .ok (.run o')) :
    (∀ text,
      ((∃ given, Settings.ofText v.format text = .ok given) ↔
        ∃ es, v.format.read text = .ok es ∧ IsSettings es) ∧
      ∀ given, Settings.ofText v.format text = .ok given ↔
        ∃ es, v.format.read text = .ok es ∧ Describes .default es given) ∧
    (∀ settings, resolveSettings v.format o s.readFile = .ok settings ↔
      Effective v.format o s.readFile settings) ∧
    (∀ settings, Effective v.format o s.readFile settings →
      Effective v.format o' s'.readFile settings →
      resolveFilter v o s.logVariable = resolveFilter v o' s'.logVariable →
      o.keys = o'.keys → s.input = s'.input → run v s args = run v s' args') ∧
    ∀ path, o.config = some path → FileRejected v.format (s.readFile path) →
      ∃ e, Settings.ofFile v.format path (s.readFile path) = .error e ∧
        run v s args = ⟨1, "", v.report (.settings e)⟩ := by
  have hrun : run v s args = runOptions v s o := by simp only [run, hargs]
  have hrun' : run v s' args' = runOptions v s' o' := by simp only [run, hargs']
  refine ⟨fun text => ⟨?_, fun given => Settings.ofText_eq_ok_iff hdistinct⟩,
    fun settings => resolveSettings_eq_ok_iff hdistinct, ?_, ?_⟩
  · simp only [Settings.ofText_eq_ok_iff hdistinct, ← Settings.exists_describes_iff .default]
    exact ⟨fun ⟨given, es, hes, h⟩ => ⟨es, hes, given, h⟩,
      fun ⟨es, hes, given, h⟩ => ⟨given, es, hes, h⟩⟩
  · intro settings h h' hfilter hkeys hinput
    rw [hrun, hrun']
    exact runOptions_congr ((resolveSettings_eq_ok_iff hdistinct).mpr h)
      ((resolveSettings_eq_ok_iff hdistinct).mpr h') hfilter hkeys hinput
  · intro path hpath h
    rw [hrun]
    exact runOptions_of_fileRejected hdistinct hpath h

/-- A file with the error marker and a flag, a file with the reports and the
error marker of the arguments, and flags alone come to the same run. A file with
a number for the error marker makes a run fail, although the arguments replace
the marker. -/
theorem run_settings_sources :
    let v := Program.conventions
    let files : List (Path × String) :=
      [(.ofText "marker", "error_marker = 'E'\n"),
        (.ofText "reports", "# both\nshow_postfix = true"), (.ofText "number", "error_marker = 1")]
    let readFile := fun path =>
      ((files.lookup path).map fun text => text.toUTF8.toList).elim (.error .missing) .ok
    let s : Surroundings := ⟨readFile, [], none⟩
    let flags := ["--show-postfix", "--error-marker", "E", "1+="].map Argument.ofText
    let marker := ["1+=", "--config", "marker", "--show-postfix"].map Argument.ofText
    let reports := ["--error-marker=E", "1+=", "--config=reports"].map Argument.ofText
    let number :=
      ["--config", "number", "--show-postfix", "--error-marker", "E", "1+="].map Argument.ofText
    v.format.DistinctKeys ∧ run v s flags = ⟨0, "E\n", "postfix: 1 +\n"⟩ ∧
      run v s marker = run v s flags ∧ run v s reports = run v s flags ∧
      (run v s number).code = 1 ∧ (run v s number).printed.out = "" := by
  intro v files readFile s flags marker reports number
  have hdistinct : v.format.DistinctKeys := Program.Toml.distinctKeys_format
  have hflags : v.arguments flags = .ok (.run ⟨["1+="], none, some "E", true, false⟩) := by
    decide +kernel
  have hmarker : v.arguments marker =
      .ok (.run ⟨["1+="], some (.ofText "marker"), none, true, false⟩) := by
    decide +kernel
  have hreports : v.arguments reports =
      .ok (.run ⟨["1+="], some (.ofText "reports"), some "E", false, false⟩) := by
    decide +kernel
  have hnumber : v.arguments number =
      .ok (.run ⟨["1+="], some (.ofText "number"), some "E", true, false⟩) := by
    decide +kernel
  have hsame : ∀ {args o}, v.arguments args = .ok (.run o) → o.keys = ["1+="] →
      o.verbose = false → resolveSettings v.format o s.readFile = .ok ⟨"E", true⟩ →
      run v s args = run v s flags := by
    intro args o hargs hkeys hverbose hresolve
    obtain ⟨-, heffective, hrun, -⟩ := run_settings v hdistinct s s args flags o _ hargs hflags
    refine hrun ⟨"E", true⟩ ((heffective _).mp hresolve) ⟨.default, .inl ⟨rfl, rfl⟩, rfl, by simp⟩ ?_
      hkeys rfl
    rw [resolveFilter, resolveFilter, hverbose]
  have hrejected : FileRejected v.format (s.readFile (.ofText "number")) :=
    (Settings.fileRejected_iff hdistinct (.ofText "number")).mpr
      ⟨.invalid (.ofText "number") (.wrongType "integer `1`" "a string")
        "invalid type: integer `1`, expected a string", by decide +kernel⟩
  obtain ⟨-, -, -, hfile⟩ := run_settings v hdistinct s s number number _ _ hnumber hnumber
  obtain ⟨e, -, hfailed⟩ := hfile (.ofText "number") rfl hrejected
  exact ⟨hdistinct, by decide +kernel, hsame hmarker rfl rfl (by decide +kernel),
    hsame hreports rfl rfl (by decide +kernel), by rw [hfailed], by rw [hfailed]⟩

end CommandLine

end Keypad
