import RenderProbe.Config.Load
import RenderProbe.Proofs.Text.Case
import RenderProbe.Proofs.Text.Utf8
import RenderProbe.Proofs.Yaml.Word

/-!
# What a configuration is refused for

A configuration file is refused for one of four things that its document says, and for nothing else.
What is not refused can be used as it is: its settings are those of the document, and a section that
says nothing leaves the defaults.

One more thing ends the reading, though it is no refusal: an integer with more digits than are
written, in a place where a text is asked for. Only such an integer keeps a refusal from being
reported.

* `Refused`: the reasons, each with the error that reports it. `Unwritable`: the integers in the
  way.
* `Judged`: the ways in which reading a part of the document ends.
* `instrumentationOf_judged`, `detectionOf_judged`, `scanOf_judged`, `quoteStyleOf_judged`:
  one section each.
* `loadWith_refuses_iff`: the file, whatever reads the document from its text.
-/

namespace RenderProbe

/-- The name of a quote style. -/
def QuoteStyle.label : QuoteStyle → String
  | single => "single"
  | double => "double"

namespace Config

open Yaml (Collection Document Value)

/-! ## What a document says -/

/-- The text of a setting that is a text or a number; a truth value is no number. -/
inductive HasText : Value → String → Prop
  | string (text : String) : HasText (.string text) text
  | int {n : Int} : Decimal.isOverlong n = false → HasText (.int n) (toString n)
  | float (x : Decimal.Double) : HasText (.float x) x.toText

/-- The integer that a setting is, or that its text spells. -/
inductive HasInteger : Value → Int → Prop
  | int (n : Int) : HasInteger (.int n) n
  | string {text : String} {n : Int} : Decimal.integer? text = some n → HasInteger (.string text) n

/-- A setting has a text. -/
def SaysText (key : String) (held : List (Value × Value)) (text : String) : Prop :=
  ∃ setting, Value.lookup? key held = some setting ∧ HasText setting text

/-- A setting has an integer. -/
def SaysInteger (key : String) (held : List (Value × Value)) (n : Int) : Prop :=
  ∃ setting, Value.lookup? key held = some setting ∧ HasInteger setting n

/-- A setting is an integer that cannot be written. -/
def LongText (key : String) (held : List (Value × Value)) : Prop :=
  ∃ n, Value.lookup? key held = some (.int n) ∧ Decimal.isOverlong n = true

/-- A setting is a sequence that holds an integer that cannot be written. -/
def LongItem (document : Document) (key : String) (held : List (Value × Value)) : Prop :=
  ∃ setting items n, Value.lookup? key held = some setting
    ∧ document.holds? setting = some (.sequence items) ∧ .int n ∈ items
    ∧ Decimal.isOverlong n = true

/-- The mapping that a document has under the name of a section, which may be the mapping of the
sections itself. -/
def HasSection (document : Document) (name : String) (held : List (Value × Value)) : Prop :=
  ∃ pairs value, document.pairs? document.value = some pairs ∧ Value.lookup? name pairs = some value
    ∧ document.pairs? value = some held

/-- A document has no section of a name, or an empty one. -/
def SaysNothing (document : Document) (name : String) : Prop :=
  ∀ held, HasSection document name held → held = []

/-- A document is refused with an error: it is something but no mapping, or one of its settings is
not what it has to be. -/
inductive Refused (document : Document) : ConfigError → Prop
  | notMapping : document.isEmpty document.value = false → document.pairs? document.value = none →
    Refused document .notMapping
  | symbol {held : List (Value × Value)} {text : String} :
    HasSection document "instrumentation" held → SaysText "symbol" held text →
    Text.isIdentifier text = false → Refused document (.invalidSymbol text)
  | limit {held : List (Value × Value)} {n : Int} : HasSection document "detection" held →
    SaysInteger "max_file_bytes" held n → n ≤ 0 → Refused document .limitNotPositive
  | quoteStyle {held : List (Value × Value)} {text : String} : HasSection document "printer" held →
    SaysText "quote_style" held text → text ≠ "single" → text ≠ "double" →
    Refused document (.unknownQuoteStyle text)

/-- An integer that cannot be written stands where a text is asked for. The reading ends there,
before a reason to refuse the file that comes later is looked at. -/
inductive Unwritable (document : Document) : Prop
  | wrapper {held : List (Value × Value)} {key : String} :
    HasSection document "instrumentation" held → key ∈ ["symbol", "helper", "module"] →
    LongText key held → Unwritable document
  | detection {held : List (Value × Value)} {key : String} :
    HasSection document "detection" held → key ∈ ["component_helpers", "base_classes"] →
    LongItem document key held → Unwritable document
  | scan {held : List (Value × Value)} {key : String} :
    HasSection document "scan" held → key ∈ ["extensions", "exclude_paths"] →
    LongItem document key held → Unwritable document
  | quoteStyle {held : List (Value × Value)} :
    HasSection document "printer" held → LongText "quote_style" held → Unwritable document

/-- A configuration that can be used as it is: it names a wrapper by an identifier, reads some bytes
of a source, and knows which suffixes sources have and which quotes to write. -/
structure Usable (config : Config) : Prop where
  symbol : Text.isIdentifier config.instrumentation.symbol = true
  limit : 1 ≤ config.detection.maxFileBytes
  quoteStyle : config.quoteStyle.label = "single" ∨ config.quoteStyle.label = "double"
  someExtension : config.scan.extensions ≠ []
  dotted : ∀ extension ∈ config.scan.extensions, ['.'] <+: extension.toList

/-- A configuration takes over what a document sets. -/
structure TakesOver (document : Document) (config : Config) : Prop where
  symbol : ∀ held text, HasSection document "instrumentation" held → SaysText "symbol" held text →
    config.instrumentation.symbol = text
  limit : ∀ held n, HasSection document "detection" held → SaysInteger "max_file_bytes" held n →
    config.detection.maxFileBytes = n
  quoteStyle : ∀ held text, HasSection document "printer" held → SaysText "quote_style" held text →
    config.quoteStyle.label = text

/-- A configuration has the defaults of every section in which a document says nothing. -/
structure KeepsDefaults (document : Document) (config : Config) : Prop where
  instrumentation : SaysNothing document "instrumentation" → config.instrumentation = {}
  detection : SaysNothing document "detection" → config.detection = {}
  scan : SaysNothing document "scan" → config.scan = {}
  quoteStyle : SaysNothing document "printer" → config.quoteStyle = .single

/-! ## Judging a part -/

/-- Reading a part ends with a refusal that has a reason, at an integer that cannot be written, or
with a result of which something is known. -/
inductive Judged {α : Type} (refused : ConfigError → Prop) (long : Prop) (accepted : α → Prop) :
    Except Failure α → Prop
  | refused {e : ConfigError} : refused e → Judged refused long accepted (.error (.config e))
  | long : long → Judged refused long accepted (.error (.invalidValue tooLongToWrite))
  | accepted {a : α} : accepted a → Judged refused long accepted (.ok a)

/-- Where nothing is refused. -/
abbrev Never (_ : ConfigError) : Prop :=
  False

theorem Judged.imp {α : Type} {refused refused' : ConfigError → Prop} {long long' : Prop}
    {accepted accepted' : α → Prop} {result : Except Failure α}
    (judged : Judged refused long accepted result) (refusal : ∀ e, refused e → refused' e)
    (stop : long → long') (known : ∀ a, accepted a → accepted' a) :
    Judged refused' long' accepted' result := by
  cases judged with
  | refused reason => exact .refused (refusal _ reason)
  | long isLong => exact .long (stop isLong)
  | accepted holds => exact .accepted (known _ holds)

/-- A part is read before another one: what ends the first ends both. The verdict on a whole
configuration is put together from those on its sections by this lemma alone. -/
theorem Judged.bind {α β : Type} {refused refused' : ConfigError → Prop} {long long' : Prop}
    {accepted : α → Prop} {accepted' : β → Prop} {first : Except Failure α}
    {next : α → Except Failure β} (judged : Judged refused long accepted first)
    (refusal : ∀ e, refused e → refused' e) (stop : long → long')
    (rest : ∀ a, accepted a → Judged refused' long' accepted' (next a)) :
    Judged refused' long' accepted' (first >>= next) := by
  cases judged with
  | refused reason => exact .refused (refusal _ reason)
  | long isLong => exact .long (stop isLong)
  | accepted known => exact rest _ known

/-! ## Settings -/

/-- A value is written unless it is a long integer, and then its text is the one it has. -/
theorem textOf_judged (value : Value) :
    Judged Never (∃ n, value = .int n ∧ Decimal.isOverlong n = true)
      (fun result => (∀ n, value = .int n → Decimal.isOverlong n = false) ∧
        ∀ text, result = some text ↔ HasText value text)
      (textOf value) := by
  cases value with
  | int n =>
    cases isLong : Decimal.isOverlong n with
    | true =>
      simp only [textOf, integerText, Decimal.integerText?, isLong, if_true, Except.map]
      exact .long ⟨n, rfl, isLong⟩
    | false =>
      simp only [textOf, integerText, Decimal.integerText?, isLong, Bool.false_eq_true, if_false,
        Except.map]
      refine .accepted ⟨fun m same => Value.int.inj same ▸ isLong, fun text => ⟨?_, ?_⟩⟩
      · rintro ⟨⟩
        exact .int isLong
      · rintro (_ | _ | _)
        rfl
  | string | float =>
    refine .accepted ⟨nofun, fun text => ⟨?_, ?_⟩⟩
    · rintro ⟨⟩
      constructor
    · rintro (_ | _ | _)
      rfl
  | null | bool | binary | moment | collection => exact .accepted ⟨nofun, fun _ => ⟨nofun, nofun⟩⟩

theorem text?_judged (key : String) (held : List (Value × Value)) :
    Judged Never (LongText key held)
      (fun result => ¬ LongText key held ∧ ∀ text, result = some text ↔ SaysText key held text)
      (text? key held) := by
  unfold text? LongText SaysText
  cases Value.lookup? key held with
  | none => exact .accepted ⟨by simp, by simp⟩
  | some value =>
    refine (textOf_judged value).imp (fun _ => id) (by simp) fun result ⟨short, hasText⟩ => ?_
    exact ⟨by simpa using short, by simpa using hasText⟩

theorem itemText_judged (value : Value) :
    Judged Never (∃ n, value = .int n ∧ Decimal.isOverlong n = true)
      (fun _ => ∀ n, value = .int n → Decimal.isOverlong n = false) (itemText value) := by
  cases value with
  | bool isTrue => cases isTrue <;> exact .accepted nofun
  | _ => exact (textOf_judged _).imp (fun _ => id) id fun _ known => known.1

theorem itemTexts_judged (items : List Value) :
    Judged Never (∃ n, .int n ∈ items ∧ Decimal.isOverlong n = true)
      (fun _ => ∀ n, .int n ∈ items → Decimal.isOverlong n = false) (itemTexts items) := by
  induction items with
  | nil => exact .accepted nofun
  | cons item rest ih =>
    refine (itemText_judged item).bind (fun _ => id) ?_ fun _ shortItem =>
      ih.bind (fun _ => id) ?_ fun _ shortRest => .accepted fun n isMember => ?_
    · rintro ⟨n, rfl, isLong⟩
      exact ⟨n, List.mem_cons_self, isLong⟩
    · rintro ⟨n, isMember, isLong⟩
      exact ⟨n, List.mem_cons_of_mem _ isMember, isLong⟩
    · rcases List.mem_cons.mp isMember with isItem | isRest
      · exact shortItem n isItem.symm
      · exact shortRest n isRest

theorem textsOf_judged (document : Document) (value : Value) :
    Judged Never
      (∃ items n, document.holds? value = some (.sequence items) ∧ .int n ∈ items
        ∧ Decimal.isOverlong n = true)
      (fun _ => ∀ items n, document.holds? value = some (.sequence items) → .int n ∈ items →
        Decimal.isOverlong n = false)
      (textsOf document value) := by
  unfold textsOf
  split
  · exact .accepted nofun
  · exact .accepted nofun
  · split
    · next items holds =>
      refine (itemTexts_judged items).imp (fun _ => id) ?_ fun _ short other n holds' isMember => ?_
      · rintro ⟨n, isMember, isLong⟩
        exact ⟨items, n, holds, isMember, isLong⟩
      · obtain rfl : items = other := by simpa [holds] using holds'
        exact short n isMember
    · next noSequence => exact .accepted fun items n holds => absurd holds (noSequence items)

theorem texts_judged (document : Document) (key : String) (standard : List String)
    (held : List (Value × Value)) :
    Judged Never (LongItem document key held)
      (fun result => ¬ LongItem document key held ∧ (held = [] → result = standard))
      (texts document key standard held) := by
  unfold texts LongItem
  cases found : Value.lookup? key held with
  | none => exact .accepted ⟨by simp, fun _ => rfl⟩
  | some value =>
    refine (textsOf_judged document value).imp (fun _ => id) ?_ fun _ short => ⟨?_, ?_⟩
    · rintro ⟨items, n, holds, isMember, isLong⟩
      exact ⟨value, items, n, rfl, holds, isMember, isLong⟩
    · rintro ⟨_, items, n, ⟨⟩, holds, isMember, isLong⟩
      rw [short items n holds isMember] at isLong
      cases isLong
    · rintro rfl
      cases found

theorem integer?_eq_some_iff {key : String} {held : List (Value × Value)} {n : Int} :
    integer? key held = some n ↔ SaysInteger key held n := by
  have integerOf?_eq_some_iff (value : Value) : integerOf? value = some n ↔ HasInteger value n := by
    constructor
    · intro found
      cases value with
      | int => cases found; constructor
      | string => exact .string found
      | _ => cases found
    · rintro (_ | spelled)
      · rfl
      · exact spelled
  simp only [integer?, Option.bind_eq_some_iff, integerOf?_eq_some_iff, SaysInteger]

/-! ## One section -/

theorem isIdentifier_standard : Text.isIdentifier ({} : Instrumentation).symbol = true := by decide

/-- A wrapper section is refused for its symbol. Else it names an identifier. -/
theorem instrumentationOf_judged (root : Path) (held : List (Value × Value)) :
    Judged
      (fun e => ∃ text, e = .invalidSymbol text ∧ SaysText "symbol" held text
        ∧ Text.isIdentifier text = false)
      (∃ key ∈ ["symbol", "helper", "module"], LongText key held)
      (fun result => (∀ key ∈ ["symbol", "helper", "module"], ¬ LongText key held)
        ∧ Text.isIdentifier result.symbol = true
        ∧ (∀ text, SaysText "symbol" held text → result.symbol = text) ∧ (held = [] → result = {}))
      (instrumentationOf root held) := by
  refine (text?_judged "symbol" held).bind (fun _ => False.elim)
    (fun isLong => ⟨_, by simp, isLong⟩) fun symbol ⟨shortSymbol, saysSymbol⟩ => ?_
  dsimp only
  split
  · next valid =>
    refine (text?_judged "helper" held).bind (fun _ => False.elim)
      (fun isLong => ⟨_, by simp, isLong⟩) fun helper ⟨shortHelper, saysHelper⟩ =>
      (text?_judged "module" held).bind (fun _ => False.elim)
        (fun isLong => ⟨_, by simp, isLong⟩) fun module ⟨shortModule, saysModule⟩ =>
        .accepted ⟨?_, valid, fun text said => ?_, ?_⟩
    · simp only [List.forall_mem_cons]
      exact ⟨shortSymbol, shortHelper, shortModule, nofun⟩
    · rw [(saysSymbol text).mpr said, Option.getD_some]
    · rintro rfl
      have nothing (key text : String) : ¬ SaysText key [] text := nofun
      rw [Option.eq_none_iff_forall_ne_some.mpr
        fun text => mt (saysSymbol text).mp (nothing _ text),
        Option.eq_none_iff_forall_ne_some.mpr fun text => mt (saysHelper text).mp (nothing _ text),
        Option.eq_none_iff_forall_ne_some.mpr fun text => mt (saysModule text).mp (nothing _ text)]
      rfl
  · next invalid =>
    cases symbol with
    | none => exact absurd isIdentifier_standard invalid
    | some text =>
      exact .refused ⟨text, rfl, (saysSymbol text).mp rfl, Bool.eq_false_iff.mpr invalid⟩

/-- A detection section is refused for its limit. Else the limit is positive. -/
theorem detectionOf_judged (document : Document) (held : List (Value × Value)) :
    Judged
      (fun e => e = .limitNotPositive ∧ ∃ n, SaysInteger "max_file_bytes" held n ∧ n ≤ 0)
      (∃ key ∈ ["component_helpers", "base_classes"], LongItem document key held)
      (fun result => (∀ key ∈ ["component_helpers", "base_classes"], ¬ LongItem document key held)
        ∧ 1 ≤ result.maxFileBytes
        ∧ (∀ n, SaysInteger "max_file_bytes" held n → result.maxFileBytes = n)
        ∧ (held = [] → result = {}))
      (detectionOf document held) := by
  unfold detectionOf
  dsimp only
  split
  · next positive =>
    refine (texts_judged document "component_helpers" _ held).bind (fun _ => False.elim)
      (fun isLong => ⟨_, by simp, isLong⟩) fun helpers ⟨shortHelpers, noHelpers⟩ =>
      (texts_judged document "base_classes" _ held).bind (fun _ => False.elim)
        (fun isLong => ⟨_, by simp, isLong⟩) fun bases ⟨shortBases, noBases⟩ =>
        .accepted ⟨?_, positive, fun n said => ?_, ?_⟩
    · simp only [List.forall_mem_cons]
      exact ⟨shortHelpers, shortBases, nofun⟩
    · simp only [integer?_eq_some_iff.mpr said, Option.getD_some]
    · rintro rfl
      rw [noHelpers rfl, noBases rfl]
      rfl
  · next notPositive =>
    cases given : integer? "max_file_bytes" held with
    | none =>
      rw [given] at notPositive
      exact absurd (by decide) notPositive
    | some n =>
      rw [given, Option.getD_some] at notPositive
      exact .refused ⟨rfl, n, integer?_eq_some_iff.mp given, Int.not_lt.mp notPositive⟩

theorem dot_prefix_normalizeExtension (value : String) :
    ['.'] <+: (normalizeExtension value).toList := by
  unfold normalizeExtension
  dsimp only
  split
  · next dotted =>
    obtain ⟨rest, isRest⟩ := List.head?_eq_some_iff.mp (eq_of_beq dotted)
    exact ⟨rest, isRest.symm⟩
  · exact ⟨_, by rw [String.toList_append]; rfl⟩

/-- A scan section is never refused; its suffixes are some, and start with a dot. -/
theorem scanOf_judged (document : Document) (held : List (Value × Value)) :
    Judged Never (∃ key ∈ ["extensions", "exclude_paths"], LongItem document key held)
      (fun result => (∀ key ∈ ["extensions", "exclude_paths"], ¬ LongItem document key held)
        ∧ result.extensions ≠ [] ∧ (∀ extension ∈ result.extensions, ['.'] <+: extension.toList)
        ∧ (held = [] → result = {}))
      (scanOf document held) := by
  refine (texts_judged document "extensions" _ held).bind (fun _ => False.elim)
    (fun isLong => ⟨_, by simp, isLong⟩) fun extensions ⟨shortExtensions, noExtensions⟩ =>
    (texts_judged document "exclude_paths" _ held).bind (fun _ => False.elim)
      (fun isLong => ⟨_, by simp, isLong⟩) fun excludes ⟨shortExcludes, noExcludes⟩ =>
      .accepted ⟨?_, ?_, ?_, ?_⟩
  · simp only [List.forall_mem_cons]
    exact ⟨shortExtensions, shortExcludes, nofun⟩
  · dsimp only
    split
    · decide
    · next some => simpa using some
  · dsimp only
    split
    · decide
    · intro extension isMember
      obtain ⟨value, -, rfl⟩ := List.mem_map.mp isMember
      exact dot_prefix_normalizeExtension value
  · rintro rfl
    rw [noExtensions rfl, noExcludes rfl]
    rfl

/-- A printer section is refused for its quote style. Else it has the style that it names. -/
theorem quoteStyleOf_judged (held : List (Value × Value)) :
    Judged
      (fun e => ∃ text, e = .unknownQuoteStyle text ∧ SaysText "quote_style" held text
        ∧ text ≠ "single" ∧ text ≠ "double")
      (LongText "quote_style" held)
      (fun style => ¬ LongText "quote_style" held
        ∧ (∀ text, SaysText "quote_style" held text → style.label = text)
        ∧ (held = [] → style = .single))
      (quoteStyleOf held) := by
  refine (text?_judged "quote_style" held).bind (fun _ => False.elim) id
    fun given ⟨short, hasStyle⟩ => ?_
  have something (text : String) (isGiven : given = some text) : held ≠ [] := by
    rintro rfl
    obtain ⟨setting, found, -⟩ := (hasStyle text).mp isGiven
    cases found
  cases given with
  | none =>
    exact .accepted ⟨short, fun text said => absurd ((hasStyle text).mpr said) nofun, fun _ => rfl⟩
  | some text =>
    have same (other : String) (said : SaysText "quote_style" held other) : text = other :=
      Option.some.inj ((hasStyle other).mpr said)
    dsimp only
    split
    · next isSingle =>
      obtain rfl := eq_of_beq isSingle
      exact .accepted ⟨short, same, fun empty => absurd empty (something _ rfl)⟩
    · next notSingle =>
      split
      · next isDouble =>
        obtain rfl := eq_of_beq isDouble
        exact .accepted ⟨short, same, fun empty => absurd empty (something _ rfl)⟩
      · next notDouble =>
        exact .refused ⟨text, rfl, (hasStyle text).mp rfl, by simpa using notSingle,
          by simpa using notDouble⟩

/-! ## The document of a file -/

section Documents

variable {document : Document} {pairs : List (Value × Value)}

theorem label_cases (style : QuoteStyle) : style.label = "single" ∨ style.label = "double" := by
  cases style
  · exact .inl rfl
  · exact .inr rfl

/-- What is taken for a section is one, or empty. -/
theorem sectionOf_cases (isMapping : document.pairs? document.value = some pairs) (name : String) :
    HasSection document name (sectionOf document name pairs)
      ∨ sectionOf document name pairs = [] := by
  unfold sectionOf
  cases found : (Value.lookup? name pairs).bind document.pairs? with
  | none => exact .inr rfl
  | some held =>
    obtain ⟨value, isValue, holds⟩ := Option.bind_eq_some_iff.mp found
    exact .inl ⟨pairs, value, isMapping, isValue, holds⟩

theorem sectionOf_eq (isMapping : document.pairs? document.value = some pairs) {name : String}
    {held : List (Value × Value)} (has : HasSection document name held) :
    sectionOf document name pairs = held := by
  obtain ⟨pairs', value, isMapping', found, holds⟩ := has
  obtain rfl := Option.some.inj (isMapping.symm.trans isMapping')
  simp only [sectionOf, found, Option.bind_some, holds, Option.getD_some]

/-- What a section says of one of its settings, the document says. -/
theorem hasSection_of_says (isMapping : document.pairs? document.value = some pairs) {name : String}
    (said : sectionOf document name pairs ≠ []) :
    HasSection document name (sectionOf document name pairs) :=
  (sectionOf_cases isMapping name).resolve_right said

theorem saysNothing_iff (isMapping : document.pairs? document.value = some pairs) {name : String} :
    SaysNothing document name ↔ sectionOf document name pairs = [] := by
  constructor
  · intro nothing
    rcases sectionOf_cases isMapping name with has | empty
    · exact nothing _ has
    · exact empty
  · intro empty held has
    rwa [← sectionOf_eq isMapping has]

theorem ne_nil_of_lookup? {key : String} {held : List (Value × Value)} {value : Value}
    (found : Value.lookup? key held = some value) : held ≠ [] := by
  rintro rfl
  cases found

/-- The sections of a mapping are refused, stopped at or accepted as the document says. Their order
decides which of several reasons is given. -/
theorem ofPairs_judged (root : Path) (isMapping : document.pairs? document.value = some pairs) :
    Judged (Refused document) (Unwritable document)
      (fun config => ¬ Unwritable document ∧ Usable config ∧ TakesOver document config
        ∧ KeepsDefaults document config)
      (ofPairs document root pairs) := by
  have has {name : String} (some : sectionOf document name pairs ≠ []) :=
    hasSection_of_says isMapping some
  refine (instrumentationOf_judged root (sectionOf document "instrumentation" pairs)).bind ?_ ?_
    fun wrapper ⟨shortWrapper, valid, symbol, noWrapper⟩ =>
      (detectionOf_judged document (sectionOf document "detection" pairs)).bind ?_ ?_
    fun detection ⟨shortDetection, positive, limit, noDetection⟩ =>
      (scanOf_judged document (sectionOf document "scan" pairs)).bind ?_ ?_
    fun scan ⟨shortScan, someExtension, dotted, noScan⟩ =>
      (quoteStyleOf_judged (sectionOf document "printer" pairs)).bind ?_ ?_
    fun quoteStyle ⟨shortQuote, label, noQuote⟩ => .accepted ⟨?_, ?_, ?_, ?_⟩
  · rintro _ ⟨text, rfl, said, invalid⟩
    exact .symbol (has (ne_nil_of_lookup? said.choose_spec.1)) said invalid
  · rintro ⟨key, isKey, isLong⟩
    exact .wrapper (has (ne_nil_of_lookup? isLong.choose_spec.1)) isKey isLong
  · rintro _ ⟨rfl, n, said, isSmall⟩
    exact .limit (has (ne_nil_of_lookup? said.choose_spec.1)) said isSmall
  · rintro ⟨key, isKey, isLong⟩
    obtain ⟨_, _, _, found, -⟩ := id isLong
    exact .detection (has (ne_nil_of_lookup? found)) isKey isLong
  · exact fun _ => False.elim
  · rintro ⟨key, isKey, isLong⟩
    obtain ⟨_, _, _, found, -⟩ := id isLong
    exact .scan (has (ne_nil_of_lookup? found)) isKey isLong
  · rintro _ ⟨text, rfl, said, notSingle, notDouble⟩
    exact .quoteStyle (has (ne_nil_of_lookup? said.choose_spec.1)) said notSingle notDouble
  · exact fun isLong => .quoteStyle (has (ne_nil_of_lookup? isLong.choose_spec.1)) isLong
  · rintro (⟨has, isKey, isLong⟩ | ⟨has, isKey, isLong⟩ | ⟨has, isKey, isLong⟩ | ⟨has, isLong⟩)
    · exact shortWrapper _ isKey (sectionOf_eq isMapping has ▸ isLong)
    · exact shortDetection _ isKey (sectionOf_eq isMapping has ▸ isLong)
    · exact shortScan _ isKey (sectionOf_eq isMapping has ▸ isLong)
    · exact shortQuote (sectionOf_eq isMapping has ▸ isLong)
  · exact ⟨valid, positive, label_cases quoteStyle, someExtension, dotted⟩
  · exact ⟨fun _ text has said => symbol text (sectionOf_eq isMapping has ▸ said),
      fun _ n has said => limit n (sectionOf_eq isMapping has ▸ said),
      fun _ text has said => label text (sectionOf_eq isMapping has ▸ said)⟩
  · simp only [← saysNothing_iff isMapping] at noWrapper noDetection noScan noQuote
    exact ⟨noWrapper, noDetection, noScan, noQuote⟩

/-- A configuration that can be used and takes over what a document sets shows that there was
nothing to refuse. -/
theorem not_refused_of_takesOver {config : Config} {e : ConfigError}
    (isMapping : document.pairs? document.value = some pairs) (usable : Usable config)
    (takesOver : TakesOver document config) : ¬ Refused document e := by
  rintro (⟨-, noMapping⟩ | ⟨has, said, invalid⟩ | ⟨has, said, isSmall⟩ |
    ⟨has, said, notSingle, notDouble⟩)
  · rw [isMapping] at noMapping
    cases noMapping
  · rw [← takesOver.symbol _ _ has said, usable.symbol] at invalid
    cases invalid
  · rw [← takesOver.limit _ _ has said] at isSmall
    exact absurd usable.limit (by omega)
  · rw [← takesOver.quoteStyle _ _ has said] at notSingle notDouble
    exact usable.quoteStyle.elim notSingle notDouble

theorem not_hasSection_of_isEmpty {name : String} {held : List (Value × Value)}
    (empty : document.isEmpty document.value = true) : ¬ HasSection document name held := by
  rintro ⟨pairs, value, isMapping, found, -⟩
  refine ne_nil_of_lookup? found ?_
  -- only a collection has pairs, and an empty one has none
  unfold Document.pairs? at isMapping
  split at isMapping
  · next held holds =>
    cases isMapping
    cases isValue : document.value with
    | collection place =>
      rw [isValue] at holds empty
      simpa [Document.isEmpty, holds, Yaml.Collection.isEmpty] using empty
    | _ =>
      rw [isValue] at holds
      cases holds
  · cases isMapping

theorem usable_standard (root : Path) : Usable { root } where
  symbol := isIdentifier_standard
  limit := (by decide : 1 ≤ ({} : DetectionSettings).maxFileBytes)
  quoteStyle := .inl rfl
  someExtension := (by decide : ({} : ScanSettings).extensions ≠ [])
  dotted := (by decide : ∀ extension ∈ ({} : ScanSettings).extensions, ['.'] <+: extension.toList)

/-- A document is refused, stopped at or accepted as it says. -/
theorem ofDocument_judged (document : Document) (root : Path) :
    Judged (Refused document) (Unwritable document)
      (fun config => (∀ e, ¬ Refused document e) ∧ ¬ Unwritable document ∧ Usable config
        ∧ TakesOver document config ∧ KeepsDefaults document config)
      (ofDocument document root) := by
  unfold ofDocument
  split
  · next empty =>
    have nothing {name : String} {held : List (Value × Value)} : ¬ HasSection document name held :=
      not_hasSection_of_isEmpty empty
    refine .accepted ⟨?_, ?_, usable_standard root, ?_, ?_⟩
    · rintro _ (⟨something, -⟩ | ⟨has, -, -⟩ | ⟨has, -, -⟩ | ⟨has, -, -, -⟩)
      · rw [empty] at something
        cases something
      all_goals exact nothing has
    · rintro (⟨has, -, -⟩ | ⟨has, -, -⟩ | ⟨has, -, -⟩ | ⟨has, -⟩) <;> exact nothing has
    · exact ⟨fun _ _ has => absurd has nothing, fun _ _ has => absurd has nothing,
        fun _ _ has => absurd has nothing⟩
    · exact ⟨fun _ => rfl, fun _ => rfl, fun _ => rfl, fun _ => rfl⟩
  · next something =>
    split
    · next pairs isMapping =>
      refine (ofPairs_judged root isMapping).imp (fun _ => id) id
        fun config ⟨short, usable, takesOver, keepsDefaults⟩ => ?_
      exact ⟨fun _ => not_refused_of_takesOver isMapping usable takesOver, short, usable, takesOver,
        keepsDefaults⟩
    · next noMapping => exact .refused (.notMapping (Bool.eq_false_iff.mpr something) noMapping)

end Documents

/-! ## The file -/

section Files

variable {reader : String → Except Yaml.Error Document} {disk : Disk} {path : Path} {text : String}
  {document : Document}

theorem contains_of_readText {file : Path} (read : disk.readText file = .ok text) :
    disk.contains file = true := by
  unfold Disk.readText Disk.readExact Disk.readBytes at read
  unfold Disk.contains
  cases found : disk.stat file with
  | error e => simp [found, Except.map] at read
  | ok entry => rfl

/-- Every configuration that is read can be used. -/
theorem usable_of_loadWith {config : Config} (loaded : loadWith reader disk path = .ok config) :
    Usable config := by
  unfold loadWith at loaded
  dsimp only at loaded
  split at loaded
  · cases loaded
    exact usable_standard _
  · split at loaded
    · cases loaded
    · unfold ofTextWith at loaded
      split at loaded
      · cases loaded
        exact usable_standard _
      · split at loaded
        · cases loaded
        · cases loaded
        · next document isDocument =>
          have judged := ofDocument_judged document (disk.resolve (filePath disk path).parent)
          rw [loaded] at judged
          cases judged with
          | accepted known => exact known.2.2.1

theorem loadWith_eq (read : disk.readText (filePath disk path) = .ok text)
    (nonblank : ∃ c ∈ text.toList, Text.isBlank c = false) (parsed : reader text = .ok document) :
    loadWith reader disk path
      = ofDocument document (disk.resolve (filePath disk path).parent) := by
  have something : (Text.trimBlanks text.toList).isEmpty = false := by
    obtain ⟨c, isMember, solid⟩ := nonblank
    refine Bool.eq_false_iff.mpr fun empty => ?_
    have isBlank := Text.blank_of_trimBlanks_eq_nil (List.isEmpty_iff.mp empty) c isMember
    rw [solid] at isBlank
    cases isBlank
  simp only [loadWith, contains_of_readText read, Bool.not_true, Bool.false_eq_true, if_false, read,
    ofTextWith, something, parsed]

/-- A configuration file that is not blank and spells a document, whatever reads the one from the
other. The file is accepted exactly if there is no reason to refuse it and no integer that cannot be
written in the way; then it gives a configuration that can be used, which takes over what the
document sets and keeps the defaults of each section in which it says nothing. A refusal has a
reason, and every other failure is that of such an integer; without one, there is a refusal exactly
if there is a reason. -/
theorem loadWith_refuses_iff (read : disk.readText (filePath disk path) = .ok text)
    (nonblank : ∃ c ∈ text.toList, Text.isBlank c = false) (parsed : reader text = .ok document) :
    ((∃ config, loadWith reader disk path = .ok config) ↔
        (∀ e, ¬ Refused document e) ∧ ¬ Unwritable document)
      ∧ (∀ config, loadWith reader disk path = .ok config →
        Usable config ∧ TakesOver document config ∧ KeepsDefaults document config)
      ∧ (∀ failure, loadWith reader disk path = .error failure →
        (∃ e, failure = .config e ∧ Refused document e)
          ∨ failure = .invalidValue tooLongToWrite ∧ Unwritable document)
      ∧ (¬ Unwritable document →
        ((∃ e, loadWith reader disk path = .error (.config e)) ↔ ∃ e, Refused document e)) := by
  rw [loadWith_eq read nonblank parsed]
  generalize loaded : ofDocument document (disk.resolve (filePath disk path).parent) = result
  have judged := loaded ▸ ofDocument_judged document (disk.resolve (filePath disk path).parent)
  cases judged with
  | refused reason =>
    refine ⟨iff_of_false nofun fun ⟨noReason, _⟩ => noReason _ reason, nofun, ?_,
      fun _ => ?_⟩
    · rintro _ ⟨⟩
      exact .inl ⟨_, rfl, reason⟩
    · exact iff_of_true ⟨_, rfl⟩ ⟨_, reason⟩
  | long isLong =>
    refine ⟨iff_of_false nofun fun ⟨_, short⟩ => short isLong, nofun, ?_, fun short => ?_⟩
    · rintro _ ⟨⟩
      exact .inr ⟨rfl, isLong⟩
    · exact absurd isLong short
  | accepted known =>
    obtain ⟨accepted, short, usable, takesOver, keepsDefaults⟩ := known
    refine ⟨iff_of_true ⟨_, rfl⟩ ⟨accepted, short⟩, ?_, nofun, fun _ => ?_⟩
    · rintro _ ⟨⟩
      exact ⟨usable, takesOver, keepsDefaults⟩
    · exact iff_of_false nofun fun ⟨e, reason⟩ => accepted e reason

/-- A project with one file, its configuration. -/
def projectWith (text : String) : Disk :=
  { tree := .directory [(configFileName, .file text.toUTF8 0o644)]
    workingDirectory := ⟨"/", []⟩ }

theorem readText_projectWith (noReturn : '\r' ∉ text.toList) :
    (projectWith text).readText (filePath (projectWith text) ⟨"/", []⟩) = .ok text := by
  have isFile : (projectWith text).stat (filePath (projectWith text) ⟨"/", []⟩)
      = .ok (.file text.toUTF8 0o644) := rfl
  simp only [Disk.readText, Disk.readExact, Disk.readBytes, isFile, Text.fromUTF8?_toUTF8,
    Except.map, Text.withUnifiedBreaks_of_no_return noReturn]

/-- A file whose detection section is an alias of a mapping around it. That mapping is merged into
the whole configuration too, which has a limit of its own. -/
def foldedText : String :=
  "base: &base\n  max_file_bytes: ' -1 '\n  detection: *base\n<<: *base\nmax_file_bytes: 5\n"

/-- What the file says. The limit of the section is the one of the inner mapping, and it is a
text. -/
def foldedDocument : Document :=
  { value := .collection 0
    collections := [
      (2, .mapping [(.string "max_file_bytes", .string " -1 "),
        (.string "detection", .collection 2)]),
      (0, .mapping [(.string "max_file_bytes", .string " -1 "),
        (.string "detection", .collection 2), (.string "base", .collection 2),
        (.string "max_file_bytes", .int 5)])] }

theorem loadWith_refuses_folded :
    (projectWith foldedText).readText (filePath (projectWith foldedText) ⟨"/", []⟩) = .ok foldedText
      ∧ (∃ c ∈ foldedText.toList, Text.isBlank c = false)
      ∧ Yaml.parse foldedText = .ok foldedDocument
      ∧ load (projectWith foldedText) ⟨"/", []⟩ = .error (.config .limitNotPositive)
      ∧ Refused foldedDocument .limitNotPositive := by
  have noReturn : '\r' ∉ foldedText.toList := by decide
  have read := readText_projectWith noReturn
  have nonblank : ∃ c ∈ foldedText.toList, Text.isBlank c = false := ⟨'b', by decide, by decide⟩
  have parsed : Yaml.parse foldedText = .ok foldedDocument := by decide +kernel
  have answer : load (projectWith foldedText) ⟨"/", []⟩ = .error (.config .limitNotPositive) := by
    decide +kernel
  refine ⟨read, nonblank, parsed, answer, ?_⟩
  obtain ⟨-, -, refusal, -⟩ := loadWith_refuses_iff read nonblank parsed
  rcases refusal _ answer with ⟨_, ⟨⟩, reason⟩ | ⟨⟨⟩, -⟩
  exact reason

/-! A number of 3573 hexadecimal digits is an integer of 4302 decimal ones, which is not written.
Where it names the module of the wrapper, the reading ends there, though a limit that is not
positive follows. -/

/-- The number. -/
def longNumber : List Char :=
  '0' :: 'x' :: '1' :: List.replicate 3572 '0'

/-- What follows on the number. -/
def lateLimit : List Char :=
  '\x7d' :: "\ndetection: \x7bmax_file_bytes: 0\x7d\n".toList

/-- The whole file. -/
def longChars : List Char :=
  "instrumentation: \x7bmodule: ".toList ++ longNumber ++ lateLimit

/-- What the file says. -/
def longDocument : Document :=
  { value := .collection 0
    collections := [
      (6, .mapping [(.string "max_file_bytes", .int 0)]),
      (2, .mapping [(.string "module", .int (Nat.pow 16 3572))]),
      (0, .mapping [(.string "instrumentation", .collection 2),
        (.string "detection", .collection 6)])] }

/-- The reader of the file in front of the number. -/
def beforeNumber (number : List Char) : Yaml.Lexer where
  cursor := ⟨' ' :: number ++ lateLimit, 25, 0, 25⟩
  tokens :=
    [.blockMappingStart, .key, .scalar "instrumentation".toList true, .value, .flowMappingStart,
    .key, .scalar "module".toList true, .value]
  flow := 1
  indent := 0
  indents := [-1]
  keyAllowed := false

/-- The reader of the file behind the number. -/
def behindNumber (number : List Char) : Yaml.Lexer :=
  { (beforeNumber number).push (.scalar number true) with
    cursor := ⟨lateLimit, 26 + number.length, 0, 26 + number.length⟩ }

/-- The tokens of the file. -/
def longTokens : List Yaml.Token :=
  (behindNumber longNumber).tokens ++ [.flowMappingEnd, .key, .scalar "detection".toList true,
    .value, .flowMappingStart, .key, .scalar "max_file_bytes".toList true, .value,
    .scalar "0".toList true, .flowMappingEnd, .blockEnd, .streamEnd]

theorem after_beforeNumber {digits : List Char}
    (isNumber : ∀ c ∈ '0' :: digits, c.isAlphanum = true) :
    (beforeNumber ('0' :: digits)).after 1 = .ok (behindNumber ('0' :: digits)) := by
  let ready : Yaml.Lexer := { beforeNumber ('0' :: digits) with
    cursor := ⟨'0' :: digits ++ lateLimit, 26, 0, 26⟩ }
  have isPlain : (beforeNumber ('0' :: digits)).after 1 = ready.plain >>= Except.ok := rfl
  rw [isPlain, Yaml.Lexer.plain_word (List.cons_ne_nil _ _) isNumber rfl rfl Nat.one_ne_zero rfl]
  rfl

/-- The digits are passed in one step; in front of them and behind them the reader is run. -/
theorem tokens_longChars : Yaml.tokens longChars = .ok longTokens := by
  have isNumber : ∀ c ∈ longNumber, c.isAlphanum = true := by
    simp only [longNumber, List.forall_mem_cons, List.mem_replicate]
    exact ⟨rfl, rfl, rfl, fun c isZero => isZero.2 ▸ rfl⟩
  have allowed : longChars.all Yaml.isAllowed = true := by decide +kernel
  have front :
      Yaml.Lexer.after 5 { cursor := ⟨longChars, 0, 0, 0⟩ } = .ok (beforeNumber longNumber) := by
    decide +kernel
  have back : Yaml.Lexer.run 3630 (behindNumber longNumber) = .ok longTokens := by decide +kernel
  have length : longChars.length + 2 = 5 + (1 + 3630) := by
    unfold longChars longNumber
    rw [List.length_append, List.length_append, List.length_cons, List.length_cons,
      List.length_cons, List.length_replicate]
    decide +kernel
  have number : (beforeNumber longNumber).after 1 = .ok (behindNumber longNumber) :=
    after_beforeNumber isNumber
  have noMark : (longChars.head? == some (Char.ofNat 0xFEFF)) = false := by decide +kernel
  simp only [Yaml.tokens, allowed, noMark, length, Bool.not_true, Bool.false_eq_true, if_false]
  rw [Yaml.Lexer.run_of_after front, Yaml.Lexer.run_of_after number, back]

theorem parse_longChars : Yaml.parse (String.ofList longChars) = .ok longDocument := by
  unfold Yaml.parse
  rw [String.toList_ofList, tokens_longChars]
  decide +kernel

/-- The limit is a reason to refuse the file, but the number ends the reading before it is looked
at. -/
theorem load_stops_before_refusal : Yaml.parse (String.ofList longChars) = .ok longDocument
    ∧ Refused longDocument .limitNotPositive
    ∧ load (projectWith (String.ofList longChars)) ⟨"/", []⟩
      = .error (.invalidValue tooLongToWrite) := by
  have has : HasSection longDocument "detection" [(.string "max_file_bytes", .int 0)] :=
    ⟨[(.string "instrumentation", .collection 2), (.string "detection", .collection 6)],
      .collection 6, rfl, by decide, rfl⟩
  have said : SaysInteger "max_file_bytes" [(.string "max_file_bytes", .int 0)] 0 :=
    ⟨.int 0, by decide, .int 0⟩
  have noReturn : '\r' ∉ longChars := by decide +kernel
  have isFirst : 'i' ∈ longChars := by decide
  rw [← String.toList_ofList (l := longChars)] at noReturn isFirst
  refine ⟨parse_longChars, .limit has said (Int.le_refl 0), ?_⟩
  rw [load, loadWith_eq (readText_projectWith noReturn) ⟨'i', isFirst, by decide⟩ parse_longChars]
  decide +kernel

end Files

end Config

end RenderProbe
