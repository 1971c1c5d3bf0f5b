import EchoLog.Proofs.Settings.Fields
import Mathlib.Data.List.Forall2
/-!
# What a document comes to

The settings in a table: the sections, the keys of each, the values that each key takes, and where a record
of settings has them.  With it, what comes of a document is said without going through any field.  A
document is well typed if what it has for a known key is a value that the key takes (`WellTyped`).  It is
laid over the defaults in a record which has its values under the keys that it gives and the default under
all others (`Overlays`).  There is exactly one such record, and that is the one that is read
(`readTable_eq_some_iff`).
-/

namespace EchoLog

/-- The values that a key takes. -/
inductive Domain where
  | text
  | flag
  /-- The integers from `low` on, up to `high` if there is one. -/
  | integer (low : Int) (high : Option Int)

/-- Whether a value is one of them. -/
def Domain.admits : Domain → Toml.Value → Bool
  | .text, .string _ => true
  | .flag, .boolean _ => true
  | .integer low high, .integer n => low ≤ n && high.all (n ≤ ·)
  | _, _ => false

/-- A key, the values that it takes, and the one that a record has. -/
structure Row (σ : Type) where
  key : String
  domain : Domain
  value : σ → Toml.Value

/-- A section and its keys, in the order in which an array gives them values. -/
structure Section (σ : Type) where
  name : String
  rows : List (Row σ)

/-- The row of a part as a row of the whole. -/
def Row.over {σ τ : Type} (get : σ → τ) (row : Row τ) : Row σ :=
  ⟨row.key, row.domain, fun s => row.value (get s)⟩

/-- The section whose keys are those of a part. -/
def Section.of {σ τ : Type} (name : String) (rows : List (Row τ)) (get : σ → τ) : Section σ :=
  ⟨name, rows.map (Row.over get)⟩

/-- What is given to the keys of a section, if the value can be one: a table gives its entries, an array its
values to the first keys, and a date nothing. -/
def Toml.Value.given? (keys : List String) : Toml.Value → Option (List (String × Toml.Value))
  | .table entries => some entries
  | .array values => some (keys.zip values)
  | .moment _ => some []
  | _ => none

/-- What a document gives to the keys of a section. -/
def Section.given? {σ : Type} (part : Section σ) (document : List (String × Toml.Value)) :
    Option (List (String × Toml.Value)) :=
  match document.lookup part.name with
  | none => some []
  | some v => v.given? (part.rows.map Row.key)

/-- What a document has for a section can be one, and each known key in it has a value that it takes. -/
def Section.WellTyped {σ : Type} (part : Section σ) (document : List (String × Toml.Value)) : Prop :=
  ∃ entries, part.given? document = some entries ∧
    ∀ row ∈ part.rows, ∀ v, entries.lookup row.key = some v → row.domain.admits v = true

/-! ## The table of the settings -/

def ServerSettings.rows : List (Row ServerSettings) :=
  [⟨"bind_address", .text, fun s => .string s.bindAddress⟩,
    ⟨"port", .integer 0 (some 65535), fun s => .integer s.port.toNat⟩,
    ⟨"max_connections", .integer 0 none, fun s => .integer s.maxConnections⟩,
    ⟨"backlog", .integer (-2147483648) (some 2147483647), fun s => .integer s.backlog⟩,
    ⟨"chunk_size", .integer 0 none, fun s => .integer s.chunkSize⟩]

def StorageSettings.rows : List (Row StorageSettings) :=
  [⟨"data_file", .text, fun s => .string s.dataFile⟩,
    ⟨"remove_on_shutdown", .flag, fun s => .boolean s.removeOnShutdown⟩,
    ⟨"sync_writes", .flag, fun s => .boolean s.syncWrites⟩]

def FramingSettings.rows : List (Row FramingSettings) :=
  [⟨"preserve_remainder", .flag, fun s => .boolean s.preserveRemainder⟩,
    ⟨"max_packet_bytes", .integer 0 none, fun s => .integer s.maxPacketBytes⟩]

def TimestampSettings.rows : List (Row TimestampSettings) :=
  [⟨"enabled", .flag, fun s => .boolean s.enabled⟩,
    ⟨"interval_secs", .integer 0 none, fun s => .integer s.intervalSeconds⟩,
    ⟨"format", .text, fun s => .string s.format⟩]

def ShutdownSettings.rows : List (Row ShutdownSettings) :=
  [⟨"drain_timeout_secs", .integer 0 none, fun s => .integer s.drainTimeoutSeconds⟩,
    ⟨"fatal_storage_errors", .flag, fun s => .boolean s.fatalStorageErrors⟩]

def LoggingSettings.rows : List (Row LoggingSettings) :=
  [⟨"level", .text, fun s => .string s.level⟩,
    ⟨"format", .text, fun s => .string s.format⟩,
    ⟨"journald", .flag, fun s => .boolean s.journald⟩]

namespace Settings

/-- All sections. -/
def layout : List (Section Settings) :=
  [.of "server" ServerSettings.rows (·.server),
    .of "storage" StorageSettings.rows (·.storage),
    .of "framing" FramingSettings.rows (·.framing),
    .of "timestamp" TimestampSettings.rows (·.timestamp),
    .of "shutdown" ShutdownSettings.rows (·.shutdown),
    .of "logging" LoggingSettings.rows (·.logging)]

/-- All that a document has for known sections and known keys is what they take. -/
def WellTyped (document : List (String × Toml.Value)) : Prop :=
  ∀ part ∈ layout, part.WellTyped document

/-- A record has what a document gives, and the defaults of all that it does not give. -/
def Overlays (document : List (String × Toml.Value)) (c : Settings) : Prop :=
  ∀ part ∈ layout, ∀ row ∈ part.rows,
    row.value c = (((part.given? document).getD []).lookup row.key).getD (row.value {})

end Settings

/-! ## Rows and fields -/

namespace Row

variable {σ : Type}

/-- What a field does by its row. -/
def slot (row : Row σ) (f : Field σ) : Slot σ where
  field := f
  Content := Toml.Value
  content := row.value
  store v _ := if row.domain.admits v then some v else none

/-- The key of `t` has what a table gives it over what that of `s` has. -/
structure Takes (row : Row σ) (entries : List (String × Toml.Value)) (s t : σ) : Prop where
  admits : ∀ v, entries.lookup row.key = some v → row.domain.admits v = true
  value : row.value t = (entries.lookup row.key).getD (row.value s)

theorem slot_takes_iff {row : Row σ} {f : Field σ} (hkey : row.key = f.key)
    {entries : List (String × Toml.Value)} {s t : σ} :
    (row.slot f).Takes entries s t ↔ row.Takes entries s t := by
  rw [Slot.Takes]
  change (match entries.lookup f.key with
    | none => row.value t = row.value s
    | some v => (if row.domain.admits v then some v else none) = some (row.value t)) ↔ _
  rw [← hkey]
  split <;> rename_i hlookup
  · refine ⟨fun h => ⟨fun v hv => ?_, ?_⟩, fun h => ?_⟩
    · rw [hlookup] at hv
      cases hv
    · rwa [hlookup]
    · rw [h.value, hlookup, Option.getD_none]
  · rename_i v
    rw [Option.ite_none_right_eq_some, Option.some.injEq]
    refine ⟨fun h => ⟨fun w hw => ?_, ?_⟩, fun h => ⟨h.admits v hlookup, ?_⟩⟩
    · rw [hlookup] at hw
      exact Option.some.inj hw ▸ h.1
    · rw [hlookup, Option.getD_some, h.2]
    · rw [h.value, hlookup, Option.getD_some]

variable {key : String}

theorem text_isSound {set : String → σ → σ} {get : σ → String} (h : ∀ a s, get (set a s) = a) :
    (slot ⟨key, .text, fun s => .string (get s)⟩ (.text key set)).IsSound := by
  intro v s
  cases v with
  | string a => exact congrArg (fun a => some (Toml.Value.string a)) (h a s)
  | _ => rfl

theorem flag_isSound {set : Bool → σ → σ} {get : σ → Bool} (h : ∀ a s, get (set a s) = a) :
    (slot ⟨key, .flag, fun s => .boolean (get s)⟩ (.flag key set)).IsSound := by
  intro v s
  cases v with
  | boolean a => exact congrArg (fun a => some (Toml.Value.boolean a)) (h a s)
  | _ => rfl

theorem integer_isSound {low high : Int} {set : Int → σ → σ} {get : σ → Int}
    (h : ∀ n s, low ≤ n → n ≤ high → get (set n s) = n) :
    (slot ⟨key, .integer low (some high), fun s => .integer (get s)⟩
      (.integer key low high set)).IsSound := by
  intro v s
  cases v with
  | integer n =>
      change (if (low ≤ n && n ≤ high) = true then some (set n s) else none).map
          (fun s => Toml.Value.integer (get s)) =
        if (low ≤ n && n ≤ high) = true then some (Toml.Value.integer n) else none
      by_cases hn : (low ≤ n && n ≤ high) = true
      · rw [if_pos hn, if_pos hn, Option.map_some]
        rw [Bool.and_eq_true, decide_eq_true_eq, decide_eq_true_eq] at hn
        rw [h n s hn.1 hn.2]
      · rw [if_neg hn, if_neg hn, Option.map_none]
  | _ => rfl

theorem natural_isSound {set : Nat → σ → σ} {get : σ → Nat} (h : ∀ n s, get (set n s) = n) :
    (slot ⟨key, .integer 0 none, fun s => .integer (get s)⟩ (.natural key set)).IsSound := by
  intro v s
  cases v with
  | integer n =>
      simp only [slot, Field.natural, Domain.admits, Option.all_none, Bool.and_true, decide_eq_true_eq]
      by_cases hn : 0 ≤ n
      · rw [if_pos hn, if_pos hn, Option.map_some, h, Int.toNat_of_nonneg hn]
      · rw [if_neg hn, if_neg hn, Option.map_none]
  | _ => rfl

end Row

/-- Fields are what rows say. -/
structure Described {σ : Type} (fields : List (Field σ)) (rows : List (Row σ)) : Prop where
  keys : rows.map Row.key = fields.map Field.key
  distinct : (fields.map Field.key).Nodup
  cover : Slot.Cover (List.zipWith Row.slot rows fields)

namespace Described

variable {σ : Type} {fields : List (Field σ)} {rows : List (Row σ)} {entries : List (String × Toml.Value)}

theorem matched (h : Described fields rows) :
    List.Forall₂ (fun (row : Row σ) (f : Field σ) => row.key = f.key) rows fields := by
  have hkeys : List.Forall₂ (· = ·) (rows.map Row.key) (fields.map Field.key) := by
    rw [List.forall₂_eq_eq_eq]
    exact h.keys
  rwa [List.forall₂_map_left_iff, List.forall₂_map_right_iff] at hkeys

theorem map_field (h : Described fields rows) :
    (List.zipWith Row.slot rows fields).map Slot.field = fields := by
  have hmatched := h.matched
  clear h
  induction hmatched with
  | nil => rfl
  | cons _ _ ih => rw [List.zipWith_cons_cons, List.map_cons, ih, Row.slot]

/-- What holds of all slots, in terms of the rows. -/
theorem forall_slot_iff (h : Described fields rows) {P : Slot σ → Prop} {Q : Row σ → Prop}
    (hrow : ∀ row f, row.key = f.key → (P (row.slot f) ↔ Q row)) :
    (∀ slot ∈ List.zipWith Row.slot rows fields, P slot) ↔ ∀ row ∈ rows, Q row := by
  have hmatched := h.matched
  clear h
  induction hmatched with
  | nil => exact iff_of_true (List.forall_mem_nil _) (List.forall_mem_nil _)
  | cons hkey _ ih =>
      rw [List.zipWith_cons_cons, List.forall_mem_cons, List.forall_mem_cons]
      exact and_congr (hrow _ _ hkey) ih

theorem readTable_eq_some_iff (h : Described fields rows) {s t : σ} :
    Field.readTable fields entries s = some t ↔ ∀ row ∈ rows, row.Takes entries s t := by
  have htakes : Field.readTable ((List.zipWith Row.slot rows fields).map Slot.field) entries s = some t ↔
      ∀ slot ∈ List.zipWith Row.slot rows fields, slot.Takes entries s t := h.cover.readTable_eq_some_iff
  rw [h.map_field] at htakes
  exact htakes.trans (h.forall_slot_iff fun row f hkey => Row.slot_takes_iff hkey)

/-- A table can be stored if each known key in it has a value that it takes. -/
theorem exists_readTable (h : Described fields rows)
    (hadmits : ∀ row ∈ rows, ∀ v, entries.lookup row.key = some v → row.domain.admits v = true) (s : σ) :
    ∃ t, Field.readTable fields entries s = some t := by
  have hstore : ∀ slot ∈ List.zipWith Row.slot rows fields, ∀ v,
      entries.lookup slot.field.key = some v → (slot.store v (slot.content s)).isSome := by
    refine (h.forall_slot_iff fun row f hkey => ?_).2 hadmits
    simp [Row.slot, hkey]
  have htable := Slot.exists_readTable h.cover.sound h.cover.apart hstore
  rwa [h.map_field] at htable

theorem readSection_eq_bind (h : Described fields rows) (v : Toml.Value) (s : σ) :
    Field.readSection fields v s =
      (v.given? (rows.map Row.key)).bind fun entries => Field.readTable fields entries s := by
  cases v with
  | array values =>
      rw [Field.readSection, Toml.Value.given?, Option.bind_some, h.keys]
      exact Field.readArray_eq_readTable h.distinct values s
  | moment literal => exact (Field.readTable_nil fields s).symm
  | _ => rfl

theorem readSection_eq_some_iff (h : Described fields rows) {v : Toml.Value} {s t : σ} :
    Field.readSection fields v s = some t ↔
      ∃ entries, v.given? (rows.map Row.key) = some entries ∧ ∀ row ∈ rows, row.Takes entries s t := by
  rw [h.readSection_eq_bind, Option.bind_eq_some_iff]
  simp only [h.readTable_eq_some_iff]

end Described

theorem ServerSettings.described : Described fields rows where
  keys := rfl
  distinct := by decide
  cover :=
    { sound := by
        simp only [rows, fields, List.zipWith, List.forall_mem_cons]
        refine ⟨Row.text_isSound fun _ _ => rfl, Row.integer_isSound fun n s hlow hhigh => ?_,
          Row.natural_isSound fun _ _ => rfl, Row.integer_isSound fun _ _ _ _ => rfl,
          Row.natural_isSound fun _ _ => rfl, List.forall_mem_nil _⟩
        have hsmall : n.toNat < 2 ^ 16 := by omega
        rw [Nat.toUInt16_eq, UInt16.toNat_ofNat_of_lt' hsmall, Int.toNat_of_nonneg hlow]
      apart := by simp [rows, fields, Row.slot]
      faithful := by
        rintro ⟨⟩ ⟨⟩ h
        simpa [rows, fields, Row.slot, Int.ofNat_inj, UInt16.toNat_inj] using h }

theorem StorageSettings.described : Described fields rows where
  keys := rfl
  distinct := by decide
  cover :=
    { sound := by
        simp only [rows, fields, List.zipWith, List.forall_mem_cons]
        exact ⟨Row.text_isSound fun _ _ => rfl, Row.flag_isSound fun _ _ => rfl,
          Row.flag_isSound fun _ _ => rfl, List.forall_mem_nil _⟩
      apart := by simp [rows, fields, Row.slot]
      faithful := by
        rintro ⟨⟩ ⟨⟩ h
        simpa [rows, fields, Row.slot] using h }

theorem FramingSettings.described : Described fields rows where
  keys := rfl
  distinct := by decide
  cover :=
    { sound := by
        simp only [rows, fields, List.zipWith, List.forall_mem_cons]
        exact ⟨Row.flag_isSound fun _ _ => rfl, Row.natural_isSound fun _ _ => rfl,
          List.forall_mem_nil _⟩
      apart := by simp [rows, fields, Row.slot]
      faithful := by
        rintro ⟨⟩ ⟨⟩ h
        simpa [rows, fields, Row.slot, Int.ofNat_inj] using h }

theorem TimestampSettings.described : Described fields rows where
  keys := rfl
  distinct := by decide
  cover :=
    { sound := by
        simp only [rows, fields, List.zipWith, List.forall_mem_cons]
        exact ⟨Row.flag_isSound fun _ _ => rfl, Row.natural_isSound fun _ _ => rfl,
          Row.text_isSound fun _ _ => rfl, List.forall_mem_nil _⟩
      apart := by simp [rows, fields, Row.slot]
      faithful := by
        rintro ⟨⟩ ⟨⟩ h
        simpa [rows, fields, Row.slot, Int.ofNat_inj] using h }

theorem ShutdownSettings.described : Described fields rows where
  keys := rfl
  distinct := by decide
  cover :=
    { sound := by
        simp only [rows, fields, List.zipWith, List.forall_mem_cons]
        exact ⟨Row.natural_isSound fun _ _ => rfl, Row.flag_isSound fun _ _ => rfl,
          List.forall_mem_nil _⟩
      apart := by simp [rows, fields, Row.slot]
      faithful := by
        rintro ⟨⟩ ⟨⟩ h
        simpa [rows, fields, Row.slot, Int.ofNat_inj] using h }

theorem LoggingSettings.described : Described fields rows where
  keys := rfl
  distinct := by decide
  cover :=
    { sound := by
        simp only [rows, fields, List.zipWith, List.forall_mem_cons]
        exact ⟨Row.text_isSound fun _ _ => rfl, Row.text_isSound fun _ _ => rfl,
          Row.flag_isSound fun _ _ => rfl, List.forall_mem_nil _⟩
      apart := by simp [rows, fields, Row.slot]
      faithful := by
        rintro ⟨⟩ ⟨⟩ h
        simpa [rows, fields, Row.slot] using h }

/-! ## Sections -/

/-- What the field of a section does to the part of a record. -/
def Slot.part {σ τ : Type} (name : String) (fields : List (Field τ)) (get : σ → τ) (set : τ → σ → σ) :
    Slot σ where
  field := .nested name fields get set
  Content := τ
  content := get
  store := Field.readSection fields

theorem Slot.part_isSound {σ τ : Type} {name : String} {fields : List (Field τ)} {get : σ → τ}
    {set : τ → σ → σ} (h : ∀ u s, get (set u s) = u) : (part name fields get set).IsSound := by
  intro v s
  change ((Field.readSection fields v (get s)).map fun u => set u s).map get = _
  rw [Option.map_map]
  exact (Option.map_congr fun u _ => h u s).trans Option.map_id'

theorem Row.over_takes_iff {σ τ : Type} {get : σ → τ} {row : Row τ}
    {entries : List (String × Toml.Value)} {s t : σ} :
    (row.over get).Takes entries s t ↔ row.Takes entries (get s) (get t) :=
  ⟨fun h => ⟨h.admits, h.value⟩, fun h => ⟨h.admits, h.value⟩⟩

theorem Section.given?_of {σ τ : Type} (name : String) (rows : List (Row τ)) (get : σ → τ)
    (document : List (String × Toml.Value)) :
    (Section.of name rows get).given? document =
      match document.lookup name with
      | none => some []
      | some v => v.given? (rows.map Row.key) := by
  have hkeys : (rows.map (Row.over get)).map Row.key = rows.map Row.key := List.map_map
  rw [← hkeys]
  rfl

section Parts

variable {σ τ : Type} {name : String} {fields : List (Field τ)} {rows : List (Row τ)} {get : σ → τ}
  {document : List (String × Toml.Value)}

/-- A section takes what its keys take. -/
theorem Slot.part_takes_iff (h : Described fields rows) {set : τ → σ → σ} {s t : σ} :
    (part name fields get set).Takes document s t ↔
      ∃ entries, (Section.of name rows get).given? document = some entries ∧
        ∀ row ∈ (Section.of name rows get).rows, row.Takes entries s t := by
  rw [Slot.Takes, Section.given?_of]
  simp only [Section.of, List.forall_mem_map, Row.over_takes_iff]
  change (match document.lookup name with
    | none => get t = get s
    | some v => Field.readSection fields v (get s) = some (get t)) ↔ _
  rcases document.lookup name with _ | v
  · -- what is not there is like an empty table
    have hempty : Field.readTable fields [] (get s) = some (get t) ↔
        ∀ row ∈ rows, row.Takes [] (get s) (get t) := h.readTable_eq_some_iff
    rw [Field.readTable_nil, Option.some.injEq, eq_comm] at hempty
    simpa using hempty
  · exact h.readSection_eq_some_iff

/-- A section can be stored if it is well typed. -/
theorem Slot.part_store_isSome (h : Described fields rows)
    (htyped : (Section.of name rows get).WellTyped document) {v : Toml.Value}
    (hv : document.lookup name = some v) (u : τ) : (Field.readSection fields v u).isSome := by
  obtain ⟨entries, hentries, hadmits⟩ := htyped
  rw [Section.given?_of, hv] at hentries
  obtain ⟨t, ht⟩ : ∃ t, Field.readTable fields entries u = some t :=
    h.exists_readTable (List.forall_mem_map.1 hadmits) u
  rw [h.readSection_eq_bind]
  exact Option.isSome_of_mem (Option.bind_eq_some_iff.2 ⟨entries, hentries, ht⟩)

end Parts

namespace Settings

def slots : List (Slot Settings) :=
  [.part "server" ServerSettings.fields (·.server) fun v s => { s with server := v },
    .part "storage" StorageSettings.fields (·.storage) fun v s => { s with storage := v },
    .part "framing" FramingSettings.fields (·.framing) fun v s => { s with framing := v },
    .part "timestamp" TimestampSettings.fields (·.timestamp) fun v s => { s with timestamp := v },
    .part "shutdown" ShutdownSettings.fields (·.shutdown) fun v s => { s with shutdown := v },
    .part "logging" LoggingSettings.fields (·.logging) fun v s => { s with logging := v }]

theorem cover : Slot.Cover slots where
  sound := by
    simp only [slots, List.forall_mem_cons]
    exact ⟨Slot.part_isSound fun _ _ => rfl, Slot.part_isSound fun _ _ => rfl,
      Slot.part_isSound fun _ _ => rfl, Slot.part_isSound fun _ _ => rfl,
      Slot.part_isSound fun _ _ => rfl, Slot.part_isSound fun _ _ => rfl, List.forall_mem_nil _⟩
  apart := by
    simp only [slots, Slot.part, List.pairwise_cons, List.forall_mem_cons]
    and_intros
    all_goals
      first
      | exact Field.nested_spares fun _ _ => rfl
      | exact List.forall_mem_nil _
      | exact List.Pairwise.nil
  faithful := by
    rintro ⟨⟩ ⟨⟩ h
    simpa [slots, Slot.part] using h

variable {document : List (String × Toml.Value)}

theorem readTable_eq_some_iff_takes {s t : Settings} :
    Field.readTable fields document s = some t ↔
      ∀ part ∈ layout, ∃ entries, part.given? document = some entries ∧
        ∀ row ∈ part.rows, row.Takes entries s t := by
  refine cover.readTable_eq_some_iff.trans ?_
  simp only [slots, layout, List.forall_mem_cons]
  exact and_congr (Slot.part_takes_iff ServerSettings.described)
    (and_congr (Slot.part_takes_iff StorageSettings.described)
      (and_congr (Slot.part_takes_iff FramingSettings.described)
        (and_congr (Slot.part_takes_iff TimestampSettings.described)
          (and_congr (Slot.part_takes_iff ShutdownSettings.described)
            (and_congr (Slot.part_takes_iff LoggingSettings.described)
              (iff_of_true (List.forall_mem_nil _) (List.forall_mem_nil _)))))))

/-- **A document is read exactly if it is well typed**, and as the record that it is laid over. -/
theorem readTable_eq_some_iff {c : Settings} :
    Field.readTable fields document {} = some c ↔ WellTyped document ∧ Overlays document c := by
  rw [readTable_eq_some_iff_takes]
  constructor
  · intro h
    refine ⟨fun part hpart => ?_, fun part hpart row hrow => ?_⟩
    · obtain ⟨entries, hentries, hrows⟩ := h part hpart
      exact ⟨entries, hentries, fun row hrow => (hrows row hrow).admits⟩
    · obtain ⟨entries, hentries, hrows⟩ := h part hpart
      rw [hentries, Option.getD_some]
      exact (hrows row hrow).value
  · rintro ⟨htyped, hover⟩ part hpart
    obtain ⟨entries, hentries, hadmits⟩ := htyped part hpart
    refine ⟨entries, hentries, fun row hrow => ⟨hadmits row hrow, ?_⟩⟩
    have hvalue := hover part hpart row hrow
    rwa [hentries, Option.getD_some] at hvalue

/-- Two records in which no key differs are one. -/
theorem eq_of_rows {s t : Settings} (h : ∀ part ∈ layout, ∀ row ∈ part.rows, row.value t = row.value s) :
    s = t := by
  -- nothing comes of an empty document
  have hempty : Field.readTable fields [] s = some t :=
    readTable_eq_some_iff_takes.2 fun part hpart =>
      ⟨[], rfl, fun row hrow => ⟨nofun, h part hpart row hrow⟩⟩
  rw [Field.readTable_nil] at hempty
  exact Option.some.inj hempty

theorem Overlays.unique {c d : Settings} (hc : Overlays document c) (hd : Overlays document d) : c = d :=
  eq_of_rows fun part hpart row hrow => (hd part hpart row hrow).trans (hc part hpart row hrow).symm

/-- **A document that is well typed has a record that it is laid over.** -/
theorem exists_overlays (h : WellTyped document) : ∃ c, Overlays document c := by
  have hstore : ∀ slot ∈ slots, ∀ v, document.lookup slot.field.key = some v →
      (slot.store v (slot.content {})).isSome := by
    simp only [WellTyped, layout, List.forall_mem_cons] at h
    obtain ⟨hserver, hstorage, hframing, htimestamp, hshutdown, hlogging, -⟩ := h
    simp only [slots, List.forall_mem_cons]
    exact ⟨fun v hv => Slot.part_store_isSome ServerSettings.described hserver hv _,
      fun v hv => Slot.part_store_isSome StorageSettings.described hstorage hv _,
      fun v hv => Slot.part_store_isSome FramingSettings.described hframing hv _,
      fun v hv => Slot.part_store_isSome TimestampSettings.described htimestamp hv _,
      fun v hv => Slot.part_store_isSome ShutdownSettings.described hshutdown hv _,
      fun v hv => Slot.part_store_isSome LoggingSettings.described hlogging hv _,
      List.forall_mem_nil _⟩
  obtain ⟨c, hc⟩ := Slot.exists_readTable cover.sound cover.apart hstore
  exact ⟨c, (readTable_eq_some_iff.1 hc).2⟩

end Settings

end EchoLog
