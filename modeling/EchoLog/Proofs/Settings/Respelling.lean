import EchoLog.Proofs.Settings.Layout
import EchoLog.Proofs.Toml.Distinct
import Mathlib.Logic.Relation
/-!
# Ways to write a configuration

A configuration file comes to the record that its document is laid over the defaults in, if the document is
well typed and the record passes the check (`Settings.ofFile_overlays`).  So it may be written in other ways
without a difference: with keys and sections that are not known, in another order, and with a section as the
array of the values of its first keys (`Settings.Respells`).  That the order does not matter rests on there
being no key twice.
-/

namespace EchoLog

namespace Toml

/-- The entries of a document. -/
structure Document where
  entries : List (String × Value)
  distinct : (Value.table entries).Distinct

/-- Another way to write a section with such keys. -/
inductive Value.Respells (keys : List String) : Value → Value → Prop where
  /-- It has one more key, which is not known. -/
  | unknown {before after : List (String × Value)} {key : String} {v : Value} (hkey : key ∉ keys) :
      Respells keys (.table (before ++ after)) (.table (before ++ (key, v) :: after))
  | order {entries entries' : List (String × Value)} (hperm : entries.Perm entries') :
      Respells keys (.table entries) (.table entries')
  /-- Its first keys have given way to an array of their values. -/
  | array {values : List Value} (hlength : values.length ≤ keys.length) :
      Respells keys (.table (keys.zip values)) (.array values)

end Toml

/-- Another way to write a document. -/
inductive Settings.Respells : Toml.Document → Toml.Document → Prop where
  /-- It has one more section, which is not known. -/
  | unknown {before after : List (String × Toml.Value)} {name : String} {v : Toml.Value}
      (hname : ∀ part ∈ layout, part.name ≠ name)
      {hd : (Toml.Value.table (before ++ after)).Distinct}
      {hd' : (Toml.Value.table (before ++ (name, v) :: after)).Distinct} :
      Respells ⟨before ++ after, hd⟩ ⟨before ++ (name, v) :: after, hd'⟩
  | order {d d' : Toml.Document} (hperm : d.entries.Perm d'.entries) : Respells d d'
  /-- One of its sections is written in another way. -/
  | part {before after : List (String × Toml.Value)} {part : Section Settings} {v w : Toml.Value}
      (hpart : part ∈ layout) (hsection : v.Respells (part.rows.map Row.key) w)
      {hd : (Toml.Value.table (before ++ (part.name, v) :: after)).Distinct}
      {hd' : (Toml.Value.table (before ++ (part.name, w) :: after)).Distinct} :
      Respells ⟨before ++ (part.name, v) :: after, hd⟩ ⟨before ++ (part.name, w) :: after, hd'⟩

/-! ## What is read of a section -/

namespace Toml

variable {entries entries' before after : List (String × Value)} {key other : String} {v : Value}

theorem Value.Distinct.keys (h : (Value.table entries).Distinct) : (entries.map Prod.fst).Nodup := by
  cases h with
  | table hkeys hentries => exact hkeys

theorem Value.Distinct.of_mem (h : (Value.table entries).Distinct) (hv : (key, v) ∈ entries) :
    v.Distinct := by
  cases h with
  | table hkeys hentries => exact hentries _ hv

theorem lookup_unknown (h : other ≠ key) :
    (before ++ (key, v) :: after).lookup other = (before ++ after).lookup other := by
  rw [List.lookup_append, List.lookup_append, List.lookup_cons, beq_eq_false_iff_ne.2 h]

/-- What stands under a key, where no key stands twice. -/
theorem lookup_eq_some_iff_mem (h : (entries.map Prod.fst).Nodup) :
    entries.lookup key = some v ↔ (key, v) ∈ entries := by
  constructor
  · intro hv
    obtain ⟨before, after, rfl, -⟩ := List.lookup_eq_some_iff.1 hv
    exact List.mem_append_right _ List.mem_cons_self
  · intro hv
    obtain ⟨before, after, rfl⟩ := List.append_of_mem hv
    refine List.lookup_eq_some_iff.2 ⟨before, after, rfl, fun e he => ?_⟩
    rw [List.map_append, List.map_cons] at h
    have hbefore := (List.nodup_append.1 h).2.2 e.1 (List.mem_map_of_mem he) key List.mem_cons_self
    exact bne_iff_ne.2 hbefore.symm

theorem lookup_perm (h : (entries.map Prod.fst).Nodup) (hperm : entries.Perm entries') (key : String) :
    entries.lookup key = entries'.lookup key := by
  have h' : (entries'.map Prod.fst).Nodup := (hperm.map Prod.fst).nodup_iff.1 h
  refine Option.ext fun v => ?_
  rw [lookup_eq_some_iff_mem h, lookup_eq_some_iff_mem h', hperm.mem_iff]

/-- What is read of a section: the values of its keys, in their order. -/
def Value.reading (keys : List String) (v : Value) : Option (List (Option Value)) :=
  (v.given? keys).map fun entries => keys.map fun key => entries.lookup key

/-- **A section reads the same in each way to write it.** -/
theorem reading_of_respells {keys : List String} {v w : Value} (h : v.Respells keys w)
    (hv : v.Distinct) : v.reading keys = w.reading keys := by
  cases h with
  | unknown hkey =>
      refine congrArg some (List.map_congr_left fun other hother => (lookup_unknown ?_).symm)
      exact fun heq => hkey (heq ▸ hother)
  | order hperm =>
      exact congrArg some (List.map_congr_left fun key _ => lookup_perm hv.keys hperm key)
  | array hlength => rfl

end Toml

/-! ## What is read of a document -/

/-- What is read of a section of a document. -/
def Section.reading {σ : Type} (part : Section σ) (document : List (String × Toml.Value)) :
    Option (List (Option Toml.Value)) :=
  (part.given? document).map fun entries => part.rows.map fun row => entries.lookup row.key

namespace Settings

theorem reading_eq {part : Section Settings} {document : List (String × Toml.Value)} :
    part.reading document =
      match document.lookup part.name with
      | none => some (part.rows.map fun _ => none)
      | some v => v.reading (part.rows.map Row.key) := by
  rw [Section.reading, Section.given?]
  rcases document.lookup part.name with _ | v
  · rfl
  · simp only [Toml.Value.reading, List.map_map, Function.comp_def]

theorem layout_names : (layout.map Section.name).Nodup := by decide

/-- **Each section of a document reads the same in each way to write the document.** -/
theorem reading_of_respells {d d' : Toml.Document} (h : Respells d d') :
    ∀ part ∈ layout, part.reading d.entries = part.reading d'.entries := by
  intro part hpart
  rw [reading_eq, reading_eq]
  cases h with
  | unknown hname => rw [Toml.lookup_unknown (hname part hpart)]
  | order hperm => rw [Toml.lookup_perm d.distinct.keys hperm]
  | @part before after other v w hother hsection hd hd' =>
      by_cases hname : part.name = other.name
      · obtain rfl := List.inj_on_of_nodup_map layout_names hpart hother hname
        have hv : (part.name, v) ∈ before ++ (part.name, v) :: after :=
          List.mem_append_right _ List.mem_cons_self
        have hw : (part.name, w) ∈ before ++ (part.name, w) :: after :=
          List.mem_append_right _ List.mem_cons_self
        rw [(Toml.lookup_eq_some_iff_mem hd.keys).2 hv, (Toml.lookup_eq_some_iff_mem hd'.keys).2 hw]
        exact Toml.reading_of_respells hsection (hd.of_mem hv)
      · rw [Toml.lookup_unknown hname, Toml.lookup_unknown hname]

theorem takes_of_reading {part : Section Settings} {document document' : List (String × Toml.Value)}
    (h : part.reading document = part.reading document') {s t : Settings}
    (htakes : ∃ entries, part.given? document = some entries ∧ ∀ row ∈ part.rows, row.Takes entries s t) :
    ∃ entries, part.given? document' = some entries ∧ ∀ row ∈ part.rows, row.Takes entries s t := by
  obtain ⟨entries, hentries, hrows⟩ := htakes
  rw [Section.reading, Section.reading, hentries, Option.map_some] at h
  obtain ⟨entries', hentries', hsame⟩ := Option.map_eq_some_iff.1 h.symm
  refine ⟨entries', hentries', fun row hrow => ?_⟩
  have hlookup := List.map_inj_left.1 hsame row hrow
  obtain ⟨hadmits, hvalue⟩ := hrows row hrow
  rw [← hlookup] at hadmits hvalue
  exact ⟨hadmits, hvalue⟩

/-- Documents of which the same is read come to the same record. -/
theorem readTable_congr_reading {document document' : List (String × Toml.Value)}
    (h : ∀ part ∈ layout, part.reading document = part.reading document') :
    Field.readTable fields document {} = Field.readTable fields document' {} := by
  refine Option.ext fun c => ?_
  rw [readTable_eq_some_iff_takes, readTable_eq_some_iff_takes]
  exact forall₂_congr fun part hpart =>
    ⟨takes_of_reading (h part hpart), takes_of_reading (h part hpart).symm⟩

theorem readTable_congr_respells {d d' : Toml.Document} (h : Relation.EqvGen Respells d d') :
    Field.readTable fields d.entries {} = Field.readTable fields d'.entries {} := by
  induction h with
  | rel d d' h => exact readTable_congr_reading (reading_of_respells h)
  | refl d => rfl
  | symm d d' _ ih => exact ih.symm
  | trans d d' d'' _ _ ih ih' => exact ih.trans ih'

/-! ## Files -/

/-- A file with a document in it. -/
theorem ofFile_eq_bind {bytes : Bytes} {text : String} {document : List (String × Toml.Value)}
    (htext : ofUtf8? bytes = some text) (hparse : Toml.parse text = .ok document) :
    ofFile (.ok bytes) =
      match Field.readTable fields document {} with
      | none => .error (.malformed "a value has the wrong type or is out of range")
      | some c => c.check.map fun _ => c := by
  simp only [ofFile, htext, ofText, readDocument, hparse]
  rcases Field.readTable fields document {} with _ | c
  · rfl
  · change (c.check.bind fun _ => .ok c) = c.check.map fun _ => c
    cases c.check <;> rfl

theorem check_eq_ok_iff {s c : Settings} : (s.check.map fun _ => s) = .ok c ↔ s = c ∧ c.check = .ok () := by
  constructor
  · intro h
    rcases hcheck : s.check with fault | _ <;> rw [hcheck] at h <;> cases h
    exact ⟨rfl, hcheck⟩
  · rintro ⟨rfl, hcheck⟩
    rw [hcheck]
    rfl

/-- **A configuration file overrides exactly what it names.** -/
theorem ofFile_overlays {bytes : Bytes} {text : String} {document : List (String × Toml.Value)}
    (htext : ofUtf8? bytes = some text) (hparse : Toml.parse text = .ok document) :
    (∀ c, ofFile (.ok bytes) = .ok c ↔ WellTyped document ∧ Overlays document c ∧ c.check = .ok ()) ∧
    (WellTyped document → ∃! c, Overlays document c) ∧
    ∃ d : Toml.Document, d.entries = document ∧ ∀ bytes' text' d', ofUtf8? bytes' = some text' →
      Toml.parse text' = .ok d'.entries → Relation.EqvGen Respells d d' →
        ofFile (.ok bytes') = ofFile (.ok bytes) := by
  refine ⟨fun c => ?_, fun htyped => ?_, ⟨document, Toml.distinct_of_parse hparse⟩, rfl,
    fun bytes' text' d' htext' hparse' hrespells => ?_⟩
  · rw [ofFile_eq_bind htext hparse, ← and_assoc, ← readTable_eq_some_iff]
    rcases Field.readTable fields document {} with _ | s
    · exact iff_of_false nofun nofun
    · rw [Option.some.injEq]
      exact check_eq_ok_iff
  · obtain ⟨c, hc⟩ := exists_overlays htyped
    exact ⟨c, hc, fun other hother => hother.unique hc⟩
  · rw [ofFile_eq_bind htext hparse, ofFile_eq_bind htext' hparse', readTable_congr_respells hrespells]

/-- A key that is not known, and an array for a table. -/
theorem ofFile_overlays_of_array :
    let text := "[server]\nbind_address = 'h'\nport = 80"
    let document := [("server", Toml.Value.table [("bind_address", .string "h"), ("port", .integer 80)])]
    ofUtf8? (utf8 text) = some text ∧ Toml.parse text = .ok document ∧
      ofFile (.ok (utf8 "extra = true\nserver = [ 'h', 80 ]")) = ofFile (.ok (utf8 text)) := by
  intro text document
  have htext : ofUtf8? (utf8 text) = some text := by decide +kernel
  have hparse : Toml.parse text = .ok document := by decide +kernel
  refine ⟨htext, hparse, ?_⟩
  obtain ⟨-, -, ⟨entries, hdistinct⟩, rfl, hwritten⟩ := ofFile_overlays htext hparse
  have harray : Toml.parse "server = [ 'h', 80 ]" =
      .ok [("server", .array [.string "h", .integer 80])] := by decide +kernel
  have hextra : Toml.parse "extra = true\nserver = [ 'h', 80 ]" =
      .ok [("extra", .boolean true), ("server", .array [.string "h", .integer 80])] := by decide +kernel
  have hfirst : Respells ⟨document, hdistinct⟩ ⟨_, Toml.distinct_of_parse harray⟩ :=
    @Respells.part [] [] _ _ _ (.head _) (@Toml.Value.Respells.array _ [.string "h", .integer 80] (by decide))
      _ _
  have hsecond : Respells ⟨_, Toml.distinct_of_parse harray⟩ ⟨_, Toml.distinct_of_parse hextra⟩ :=
    @Respells.unknown [] _ "extra" _ (by decide) _ _
  exact hwritten _ _ _ (by decide +kernel) hextra (.trans _ _ _ (.rel _ _ hfirst) (.rel _ _ hsecond))

/-- A section may also be a date or a time, which gives none of its keys anything. -/
theorem ofFile_of_moment :
    ¬ ∀ (bytes : Bytes) (text : String) (document : List (String × Toml.Value)),
      ofUtf8? bytes = some text → Toml.parse text = .ok document → ∀ c,
        (ofFile (.ok bytes) = .ok c ↔
          (∀ part ∈ layout, ∀ v, document.lookup part.name = some v →
            (∃ entries, v = .table entries) ∨ ∃ values, v = .array values) ∧
          WellTyped document ∧ Overlays document c ∧ c.check = .ok ()) := by
  intro h
  have hparse : Toml.parse "server = 00:00:00" = .ok [("server", .moment "00:00:00")] := by decide +kernel
  have hread : ofFile (.ok (utf8 "server = 00:00:00")) = .ok {} := by decide +kernel
  obtain ⟨htyped, -⟩ := (h _ _ _ (by decide +kernel) hparse {}).1 hread
  rcases htyped _ (.head _) _ rfl with ⟨entries, ⟨⟩⟩ | ⟨values, ⟨⟩⟩

end Settings

end EchoLog
