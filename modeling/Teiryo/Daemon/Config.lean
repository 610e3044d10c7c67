import Teiryo.Core.Wire
import Teiryo.Framework.Except
import Teiryo.Framework.Toml
import Mathlib.Data.Finmap
import Mathlib.Data.Finset.Sort

/-!
# Daemon configuration

Parsing, validating and editing `config.toml`, following `teiryod/src/config.rs`. The `toml` and
`toml_edit` crates are a parameter; what is used of them is stated where it is used.
-/

namespace Teiryo

open Toml

/-- The two TOML crates, as the daemon calls them: `toml::Table::from_str`,
`DocumentMut::from_str`, `DocumentMut::to_string` and `Table::set_implicit`. `isImplicit` is
`Table::is_implicit` of the table at a path: it was never given a header of its own, as a table
written in dotted keys is not. -/
structure TomlCrates (Layout : Type) where
  tableFromStr : String → Except String (Entries Value)
  documentFromStr : String → Except String (Doc Layout)
  documentToString : Doc Layout → String
  setImplicit : Layout → String → Layout
  isImplicit : Layout → List String → Bool

/-- The crates on a given list of documents, each read from what `print` makes of it. -/
def TomlCrates.printing (print : Entries Item → String) (implicit : Bool)
    (docs : List (Entries Item)) : TomlCrates Unit :=
  let read (text : String) : Except String (Doc Unit) :=
    match docs.find? fun root => print root = text with
    | some root => .ok { root, layout := () }
    | none => .error "unexpected text"
  { tableFromStr := fun text => (read text).map Doc.values
    documentFromStr := read
    documentToString := fun doc => print doc.root
    setImplicit := fun layout _ => layout
    isImplicit := fun _ _ => implicit }

/-- The crates on documents written with table headers. -/
def TomlCrates.plain (docs : List (Entries Item)) : TomlCrates Unit := .printing render false docs

/-- The crates on documents written in dotted keys. -/
def TomlCrates.dotted (docs : List (Entries Item)) : TomlCrates Unit :=
  .printing renderDotted true docs

structure ConfigError where
  message : String
  deriving DecidableEq, Repr

structure ProviderConfig where
  enabled : Bool := true
  pollIntervalSecs : Option Nat := none
  deriving DecidableEq, Repr

instance : Inhabited ProviderConfig := ⟨{}⟩

/-- Daemon config, after validation. -/
structure Config where
  pollIntervalSecs : Option Nat := none
  providers : Finmap fun _ : String => ProviderConfig := ∅
  deriving DecidableEq

instance : Inhabited Config := ⟨{}⟩

/-- A validated config plus the unknown keys that were dropped. -/
structure LoadedConfig where
  config : Config := {}
  warnings : List String := []
  deriving DecidableEq

instance : Inhabited LoadedConfig := ⟨{}⟩

/-- `config.toml` as a read finds it. -/
inductive ConfigFile where
  | missing
  | unreadable (error : String)
  | text (content : String)
  deriving DecidableEq, Repr

namespace Config

/-- Default poll interval when no override is configured, in seconds. -/
def defaultSecs : Nat := 180

/-- `MIN_POLL_INTERVAL_SECS`. -/
def minSecs : Nat := 10

/-- `MAX_POLL_INTERVAL_SECS`. -/
def maxSecs : Nat := 2 ^ 32 - 1

/-- `Duration::from_secs`. -/
def fromSecs (secs : Nat) : StdDuration := secs * 1000000000

/-- `Duration::as_secs`. -/
def asSecs (d : StdDuration) : Nat := d / 1000000000

def secsToU32 (secs : Nat) : UInt32 := UInt32.ofNat (min secs maxSecs)

def providerEnabled (c : Config) (provider : ProviderId) : Bool :=
  (c.providers.lookup provider).all (·.enabled)

def pollInterval (c : Config) (provider : ProviderId) : StdDuration :=
  let secs := ((c.providers.lookup provider).bind (·.pollIntervalSecs)).or c.pollIntervalSecs
  (secs.map fromSecs).getD (fromSecs defaultSecs)

/-- The wire-facing view: a row for every compiled-in provider and every configured one. -/
def view (c : Config) (known : List ProviderId) : ConfigView where
  pollIntervalSecs := c.pollIntervalSecs.map secsToU32
  defaultPollIntervalSecs := secsToU32 defaultSecs
  minPollIntervalSecs := secsToU32 minSecs
  providers := ((known.toFinset ∪ c.providers.keys).sort (· ≤ ·)).map fun id => {
    provider := id
    enabled := c.providerEnabled id
    pollIntervalSecs := ((c.providers.lookup id).bind (·.pollIntervalSecs)).map secsToU32
    effectivePollIntervalSecs := secsToU32 (asSecs (c.pollInterval id)) }

def unknown (path : String) : String := "unknown key `" ++ path ++ "` — ignored"

def kind : Value → String
  | .string _ => "a string"
  | .integer _ => "an integer"
  | .float _ => "a float"
  | .boolean _ => "a boolean"
  | .datetime _ => "a datetime"
  | .array _ => "an array"
  | .table _ => "a table"

/-- A poll interval in whole seconds, within the accepted range. -/
def interval (value : Value) (path : String) : Except ConfigError Nat :=
  match value with
  | .integer raw =>
    if raw < 0 then
      .error ⟨"`" ++ path ++ "` must not be negative, got " ++ toString raw⟩
    else if raw.toNat < minSecs then
      .error ⟨"`" ++ path ++ "` must be at least " ++ toString minSecs ++
        " seconds, got " ++ toString raw.toNat⟩
    else if maxSecs < raw.toNat then
      .error ⟨"`" ++ path ++ "` must be at most " ++ toString maxSecs ++
        " seconds, got " ++ toString raw.toNat⟩
    else .ok raw.toNat
  | value =>
    .error ⟨"`" ++ path ++ "` must be a whole number of seconds, got " ++ kind value⟩

/-- Read one key of a provider's table. -/
def providerKey (id : String) (acc : ProviderConfig × List String) (entry : String × Value) :
    Except ConfigError (ProviderConfig × List String) :=
  if entry.1 = "enabled" then
    match entry.2 with
    | .boolean b => .ok ({ acc.1 with enabled := b }, acc.2)
    | value => .error
        ⟨"`providers." ++ id ++ ".enabled` must be true or false, got " ++ kind value⟩
  else if entry.1 = "poll_interval_secs" then do
    let secs ← interval entry.2 ("providers." ++ id ++ "." ++ entry.1)
    return ({ acc.1 with pollIntervalSecs := some secs }, acc.2)
  else .ok (acc.1, acc.2 ++ [unknown ("providers." ++ id ++ "." ++ entry.1)])

def provider (value : Value) (id : String) (warnings : List String) :
    Except ConfigError (ProviderConfig × List String) :=
  match value with
  | .table table => table.foldlM (providerKey id) ({}, warnings)
  | value => .error ⟨"`providers." ++ id ++ "` must be a table, got " ++ kind value⟩

def providerEntry (loaded : LoadedConfig) (entry : String × Value) :
    Except ConfigError LoadedConfig := do
  let (config, warnings) ← provider entry.2 entry.1 loaded.warnings
  return { loaded with
    config := { loaded.config with providers := loaded.config.providers.insert entry.1 config }
    warnings }

/-- Read one top-level key. -/
def topLevelKey (loaded : LoadedConfig) (entry : String × Value) :
    Except ConfigError LoadedConfig :=
  if entry.1 = "poll_interval_secs" then do
    let secs ← interval entry.2 entry.1
    return { loaded with config := { loaded.config with pollIntervalSecs := some secs } }
  else if entry.1 = "providers" then
    match entry.2 with
    | .table providers => providers.foldlM providerEntry loaded
    | value => .error ⟨"`providers` must be a table, got " ++ kind value⟩
  else .ok { loaded with warnings := loaded.warnings ++ [unknown entry.1] }

/-- Validate a parsed table. -/
def parseTable (table : Entries Value) : Except ConfigError LoadedConfig :=
  table.foldlM topLevelKey {}

variable {Layout : Type}

/-- Parse and validate config text. -/
def parse (toml : TomlCrates Layout) (text : String) : Except ConfigError LoadedConfig :=
  match toml.tableFromStr text with
  | .error e => .error ⟨"not valid TOML: " ++ e⟩
  | .ok table => parseTable table

/-- `parse` over a file; a missing file is the default config. -/
def load (toml : TomlCrates Layout) : ConfigFile → Except ConfigError LoadedConfig
  | .text text => parse toml text
  | .missing => .ok {}
  | .unreadable e => .error ⟨"cannot read the file: " ++ e⟩

/-- Reject an edit the daemon would not accept back, before it reaches the file. -/
def validateEdit : ConfigEdit → Except ConfigError Unit
  | .globalPollInterval (some secs) =>
      (interval (.integer secs.toNat) "poll_interval_secs").map fun _ => ()
  | .globalPollInterval none => .ok ()
  | .providerPollInterval provider (some secs) =>
      (interval (.integer secs.toNat) ("providers." ++ provider ++ ".poll_interval_secs")).map
        fun _ => ()
  | .providerPollInterval _ none => .ok ()
  | .providerEnabled _ _ => .ok ()

/-- `entry(key).or_insert_with(Table::new).as_table_mut()`: the table under a key, a new one
when there is nothing, and an error when something other than a standard table is there. -/
def tableAt (entries : Entries Item) (key message : String) :
    Except ConfigError (Entries Item) :=
  match entries.find key with
  | none => .ok []
  | some (.table table) => .ok table
  | some (.value _ _) => .error ⟨message⟩

/-- The `[providers.<id>]` table, created if absent, changed in place by `change`. -/
def withProviderTable (toml : TomlCrates Layout) (doc : Doc Layout) (provider : ProviderId)
    (change : Entries Item → Entries Item) : Except ConfigError (Doc Layout) := do
  let fresh := (doc.root.find "providers").isNone
  let providers ← tableAt doc.root "providers" "`providers` is not a table"
  let layout := if fresh then toml.setImplicit doc.layout "providers" else doc.layout
  let table ← tableAt providers provider ("`providers." ++ provider ++ "` is not a table")
  let providers := Entries.insert providers provider (.table (change table))
  return { root := doc.root.insert "providers" (.table providers), layout }

def applyEdit (toml : TomlCrates Layout) (doc : Doc Layout) :
    ConfigEdit → Except ConfigError (Doc Layout)
  | .globalPollInterval (some secs) =>
      .ok { doc with root :=
        doc.root.insert "poll_interval_secs" (newValue (.integer secs.toNat)) }
  | .globalPollInterval none =>
      .ok { doc with root := doc.root.erase "poll_interval_secs" }
  | .providerPollInterval provider secs =>
      withProviderTable toml doc provider fun table =>
        match secs with
        | some secs => table.insert "poll_interval_secs" (newValue (.integer secs.toNat))
        | none => table.erase "poll_interval_secs"
  | .providerEnabled provider enabled =>
      withProviderTable toml doc provider fun table =>
        table.insert "enabled" (newValue (.boolean enabled))

/-- Apply one edit to `config.toml` and write it back. `writeFault` is how `atomic_write` fails,
if it does; a failed write leaves the file as it was. -/
def writeEdit (toml : TomlCrates Layout) (file : ConfigFile) (writeFault : Option String)
    (edit : ConfigEdit) : Except ConfigError String × ConfigFile :=
  let attempt : Except ConfigError String := do
    validateEdit edit
    let text ← match file with
      | .text text => .ok text
      | .missing => .ok ""
      | .unreadable e => .error ⟨"cannot read the file: " ++ e⟩
    let doc ← match toml.documentFromStr text with
      | .ok doc => .ok doc
      | .error e => .error ⟨"not valid TOML: " ++ e⟩
    let doc ← applyEdit toml doc edit
    match writeFault with
    | some e => .error ⟨"cannot write the file: " ++ e⟩
    | none => .ok (toml.documentToString doc)
  match attempt with
  | .ok out => (.ok out, .text out)
  | .error e => (.error e, file)

end Config
end Teiryo
