import EchoLog.Toml.Document
import Mathlib.Data.List.Nodup
/-!
# No key is given twice

What a document says about a key does not depend on where in its table the key stands, because no table of a
document has a key twice, at any depth (`distinct_of_parse`).  Every way to add to a draft keeps it so.
-/

namespace EchoLog.Toml

/-- No table in a value has a key twice. -/
inductive Value.Distinct : Value → Prop where
  | string (text : String) : Distinct (.string text)
  | integer (value : Int) : Distinct (.integer value)
  | float (literal : String) : Distinct (.float literal)
  | boolean (value : Bool) : Distinct (.boolean value)
  | moment (literal : String) : Distinct (.moment literal)
  | array {items : List Value} (hitems : ∀ v ∈ items, Distinct v) : Distinct (.array items)
  | table {entries : List (String × Value)} (hkeys : (entries.map Prod.fst).Nodup)
      (hentries : ∀ e ∈ entries, Distinct e.2) : Distinct (.table entries)

/-- No table in a draft has a key twice. -/
inductive Draft.Distinct : Draft → Prop where
  | value {v : Value} (hv : v.Distinct) : Distinct (.value v)
  | table {origin : Origin} {entries : List (String × Draft)} (hkeys : (entries.map Prod.fst).Nodup)
      (hentries : ∀ e ∈ entries, Distinct e.2) : Distinct (.table origin entries)
  | tables {ts : List (List (String × Draft))} (hkeys : ∀ t ∈ ts, (t.map Prod.fst).Nodup)
      (hentries : ∀ t ∈ ts, ∀ e ∈ t, Distinct e.2) : Distinct (.tables ts)

/-- No table among entries has a key twice, and they themselves have none twice. -/
structure Entries.Distinct (entries : Entries) : Prop where
  keys : (entries.map Prod.fst).Nodup
  drafts : ∀ e ∈ entries, e.2.Distinct

/-! ## Finishing -/

theorem finishEntries_eq_map (entries : Entries) :
    finishEntries entries = entries.map fun e => (e.1, e.2.finish) := by
  induction entries with
  | nil => rw [finishEntries, List.map_nil]
  | cons e entries ih => rw [finishEntries, ih, List.map_cons, finishEntry]

theorem finishTables_eq_map (ts : List Entries) :
    finishTables ts = ts.map fun t => .table (finishEntries t) := by
  induction ts with
  | nil => rw [finishTables, List.map_nil]
  | cons t ts ih => rw [finishTables, ih, List.map_cons]

theorem map_fst_finishEntries (entries : Entries) :
    (finishEntries entries).map Prod.fst = entries.map Prod.fst := by
  rw [finishEntries_eq_map, List.map_map]
  rfl

theorem Draft.Distinct.finish {d : Draft} (h : d.Distinct) : d.finish.Distinct := by
  have htable : ∀ entries : Entries, (entries.map Prod.fst).Nodup →
      (∀ e ∈ entries, e.2.finish.Distinct) → (Value.table (finishEntries entries)).Distinct := by
    intro entries hkeys hentries
    refine .table (by rwa [map_fst_finishEntries]) ?_
    rw [finishEntries_eq_map]
    exact List.forall_mem_map.2 hentries
  induction h with
  | value hv => rwa [Draft.finish]
  | table hkeys _ ih =>
      rw [Draft.finish]
      exact htable _ hkeys ih
  | tables hkeys _ ih =>
      rw [Draft.finish, finishTables_eq_map]
      refine .array fun v hv => ?_
      obtain ⟨t, ht, rfl⟩ := List.mem_map.1 (List.mem_reverse.1 hv)
      exact htable t (hkeys t ht) (ih t ht)

theorem Entries.Distinct.finish {entries : Entries} (h : Entries.Distinct entries) :
    (Value.table (finishEntries entries)).Distinct := by
  have hdraft : (Draft.table .header entries).Distinct := .table h.keys h.drafts
  have hfinish := hdraft.finish
  rwa [Draft.finish] at hfinish

/-! ## Adding -/

namespace Entries

theorem Distinct.nil : Distinct [] :=
  ⟨List.nodup_nil, List.forall_mem_nil _⟩

theorem Distinct.append {entries : Entries} (h : Distinct entries) {key : String} {d : Draft}
    (hkey : key ∉ entries.map Prod.fst) (hd : d.Distinct) : Distinct (entries ++ [(key, d)]) := by
  constructor
  · rw [List.map_append, List.map_singleton, ← List.concat_eq_append]
    exact List.Nodup.concat hkey h.keys
  · exact List.forall_mem_append.2 ⟨h.drafts, List.forall_mem_singleton.2 hd⟩

theorem not_mem_keys {entries : Entries} {key : String} (h : entries.lookup key = none) :
    key ∉ entries.map Prod.fst := by
  intro hkey
  obtain ⟨e, he, rfl⟩ := List.mem_map.1 hkey
  simpa using List.lookup_eq_none_iff.1 h e he

theorem Distinct.of_lookup {entries : Entries} (h : Distinct entries) {key : String} {d : Draft}
    (hd : entries.lookup key = some d) : d.Distinct := by
  obtain ⟨before, after, rfl, -⟩ := List.lookup_eq_some_iff.1 hd
  exact h.drafts (key, d) (List.mem_append_right _ List.mem_cons_self)

theorem Distinct.of_table {origin : Origin} {entries : Entries} (h : (Draft.table origin entries).Distinct) :
    Distinct entries := by
  cases h with
  | table hkeys hentries => exact ⟨hkeys, hentries⟩

theorem Distinct.of_tables {ts : List Entries} (h : (Draft.tables ts).Distinct) {t : Entries}
    (ht : t ∈ ts) : Distinct t := by
  cases h with
  | tables hkeys hentries => exact ⟨hkeys t ht, hentries t ht⟩

theorem Distinct.tables {ts : List Entries} (h : ∀ t ∈ ts, Distinct t) : (Draft.tables ts).Distinct :=
  .tables (fun t ht => (h t ht).keys) fun t ht => (h t ht).drafts

theorem Distinct.table {entries : Entries} (h : Distinct entries) (origin : Origin) :
    (Draft.table origin entries).Distinct :=
  .table h.keys h.drafts

theorem Distinct.update {entries : Entries} (h : Distinct entries) {key : String} {d : Draft}
    (hd : d.Distinct) : Distinct (update entries key d) := by
  constructor
  · have hkeys : (Entries.update entries key d).map Prod.fst = entries.map Prod.fst := by
      rw [Entries.update, List.map_map]
      refine List.map_congr_left fun e _ => ?_
      rw [Function.comp]
      split
      · exact Eq.symm ‹_›
      · rfl
    rw [hkeys]
    exact h.keys
  · intro e he
    obtain ⟨e, hmem, rfl⟩ := List.mem_map.1 he
    split
    · exact hd
    · exact h.drafts e hmem

/-- A table of the entries is changed. -/
theorem Distinct.update_table {entries sub sub' : Entries} (h : Distinct entries) {key : String}
    {origin : Origin} (hkey : entries.lookup key = some (.table origin sub))
    (hsub : Distinct sub → Distinct sub') : Distinct (Entries.update entries key (.table origin sub')) :=
  h.update ((hsub (Distinct.of_table (h.of_lookup hkey))).table origin)

/-- The newest table of an array is changed. -/
theorem Distinct.update_newest {entries newest newest' : Entries} {older : List Entries}
    (h : Distinct entries) {key : String} (hkey : entries.lookup key = some (.tables (newest :: older)))
    (hnewest : Distinct newest → Distinct newest') :
    Distinct (Entries.update entries key (.tables (newest' :: older))) := by
  have hold : ∀ t ∈ newest :: older, Distinct t := fun t ht => Distinct.of_tables (h.of_lookup hkey) ht
  obtain ⟨hfirst, holder⟩ := List.forall_mem_cons.1 hold
  exact h.update (Distinct.tables (List.forall_mem_cons.2 ⟨hnewest hfirst, holder⟩))

theorem Distinct.add {entries entries' : Entries} (h : Distinct entries) {key : String} {d : Draft}
    (hd : d.Distinct) (hadd : add entries key d = some entries') : Distinct entries' := by
  obtain ⟨hnew, hadd⟩ := Option.ite_none_left_eq_some.1 hadd
  obtain rfl := Option.some.inj hadd
  refine h.append (fun hkey => hnew ?_) hd
  obtain ⟨e, he, rfl⟩ := List.mem_map.1 hkey
  exact List.any_eq_true.2 ⟨e, he, beq_self_eq_true _⟩

theorem Distinct.addDotted {path : List String} {reached : Origin} {entries entries' : Entries}
    (h : Distinct entries) {key : String} {v : Value} (hv : v.Distinct)
    (hadd : addDotted path reached entries key v = some entries') : Distinct entries' := by
  induction path generalizing reached entries entries' with
  | nil =>
      rw [Entries.addDotted] at hadd
      exact h.add (.value hv) (Option.ite_none_right_eq_some.1 hadd).2
  | cons part path ih =>
      rw [Entries.addDotted] at hadd
      split at hadd
      · rename_i hpart
        obtain ⟨sub, hsub, rfl⟩ := Option.map_eq_some_iff.1 hadd
        exact h.append (not_mem_keys hpart) ((ih .nil hsub).table _)
      · cases hadd
      · cases hadd
      · rename_i hpart
        obtain ⟨sub, hsub, rfl⟩ := Option.map_eq_some_iff.1 hadd
        exact h.update_newest hpart fun hnewest => ih hnewest hsub
      · cases hadd
      · rename_i hpart
        obtain ⟨sub, hsub, rfl⟩ := Option.map_eq_some_iff.1 hadd
        exact h.update_table hpart fun hold => ih hold hsub

theorem Distinct.addPair {path : List String} {entries entries' : Entries} (h : Distinct entries)
    {key : String} {v : Value} (hv : v.Distinct) (hadd : addPair entries path key v = some entries') :
    Distinct entries' := by
  rw [Entries.addPair] at hadd
  split at hadd
  · exact h.add (.value hv) hadd
  · exact h.addDotted hv hadd

/-- A change of one table keeps the document free of double keys if it keeps that table so. -/
theorem Distinct.change {f : Entries → Option Entries}
    (hf : ∀ {es es'}, Distinct es → f es = some es' → Distinct es') {path : List String}
    {entries entries' : Entries} (h : Distinct entries) (hchange : change f path entries = some entries') :
    Distinct entries' := by
  induction path generalizing entries entries' with
  | nil => exact hf h hchange
  | cons part path ih =>
      rw [Entries.change] at hchange
      split at hchange
      · rename_i hpart
        obtain ⟨sub, hsub, rfl⟩ := Option.map_eq_some_iff.1 hchange
        exact h.append (not_mem_keys hpart) ((ih .nil hsub).table _)
      · cases hchange
      · cases hchange
      · rename_i hpart
        obtain ⟨sub, hsub, rfl⟩ := Option.map_eq_some_iff.1 hchange
        exact h.update_newest hpart fun hnewest => ih hnewest hsub
      · rename_i hpart
        obtain ⟨sub, hsub, rfl⟩ := Option.map_eq_some_iff.1 hchange
        exact h.update_table hpart fun hold => ih hold hsub

theorem Distinct.at? {path : List String} {entries entries' : Entries} (h : Distinct entries)
    (hat : at? path entries = some entries') : Distinct entries' := by
  induction path generalizing entries with
  | nil =>
      obtain rfl := Option.some.inj hat
      exact h
  | cons part path ih =>
      rw [Entries.at?] at hat
      split at hat
      · rename_i hpart
        exact ih (Distinct.of_table (h.of_lookup hpart)) hat
      · rename_i hpart
        exact ih (Distinct.of_tables (h.of_lookup hpart) List.mem_cons_self) hat
      · cases hat

theorem Distinct.filter {entries : Entries} (h : Distinct entries) (p : String × Draft → Bool) :
    Distinct (entries.filter p) :=
  ⟨h.keys.sublist (List.filter_sublist.map Prod.fst), fun e he => h.drafts e (List.mem_of_mem_filter he)⟩

end Entries

/-! ## Sections -/

namespace Builder

/-- Neither the sections that are done nor the current one have a key twice. -/
structure Distinct (b : Builder) : Prop where
  root : Entries.Distinct b.root
  current : Entries.Distinct b.current

variable {b b' : Builder} {path : List String} {key : String}

theorem Distinct.pair (h : b.Distinct) {v : Value} (hv : v.Distinct) (hpair : b.pair path key v = some b') :
    b'.Distinct := by
  obtain ⟨current, hcurrent, rfl⟩ := Option.map_eq_some_iff.1 hpair
  exact ⟨h.root, h.current.addPair hv hcurrent⟩

theorem Distinct.close (h : b.Distinct) {entries : Entries} (hclose : b.close = some entries) :
    Entries.Distinct entries := by
  rw [Builder.close] at hclose
  split at hclose
  · obtain rfl := Option.some.inj hclose
    exact h.current
  · exact h.root.change (fun hes hadd => hes.add (h.current.table _) hadd) hclose
  · refine h.root.change (fun {es es'} hes hadd => ?_) hclose
    split at hadd
    · rename_i hkey
      obtain rfl := Option.some.inj hadd
      exact hes.append (Entries.not_mem_keys hkey)
        (Entries.Distinct.tables (List.forall_mem_singleton.2 h.current))
    · rename_i ts hkey
      obtain rfl := Option.some.inj hadd
      exact hes.update (Entries.Distinct.tables (List.forall_mem_cons.2
        ⟨h.current, fun t ht => Entries.Distinct.of_tables (hes.of_lookup hkey) ht⟩))
    · cases hadd

/-- What starts a section is the document so far, with the way to its table. -/
theorem Distinct.reach (h : b.Distinct) {closed root : Entries} (hclose : b.close = some closed)
    (hreach : Entries.change some path closed = some root) : Entries.Distinct root :=
  (h.close hclose).change (fun hes hsome => Option.some.inj hsome ▸ hes) hreach

theorem Distinct.openTable (h : b.Distinct) (hopen : b.openTable path key = some b') : b'.Distinct := by
  simp only [Builder.openTable, bind, Option.bind_eq_some_iff] at hopen
  obtain ⟨closed, hclose, root, hreach, parent, hparent, hopen⟩ := hopen
  have hroot := h.reach hclose hreach
  split at hopen
  · obtain rfl := Option.some.inj hopen
    exact ⟨hroot, .nil⟩
  · rename_i entries hkey
    obtain ⟨left, hleft, hopen⟩ := Option.bind_eq_some_iff.1 hopen
    obtain rfl := Option.some.inj hopen
    exact ⟨hroot.change (fun hes hsome => Option.some.inj hsome ▸ hes.filter _) hleft,
      Entries.Distinct.of_table ((hroot.at? hparent).of_lookup hkey)⟩
  · cases hopen

theorem Distinct.openElement (h : b.Distinct) (hopen : b.openElement path key = some b') : b'.Distinct := by
  simp only [Builder.openElement, bind, Option.bind_eq_some_iff] at hopen
  obtain ⟨closed, hclose, root, hreach, parent, hparent, hopen⟩ := hopen
  have hroot := h.reach hclose hreach
  split at hopen
  · obtain rfl := Option.some.inj hopen
    exact ⟨hroot, .nil⟩
  · obtain rfl := Option.some.inj hopen
    exact ⟨hroot, .nil⟩
  · cases hopen

end Builder

/-! ## Reading -/

theorem distinct_of_readScalar {cs rest : List Char} {v : Value} (h : readScalar cs = some (v, rest)) :
    v.Distinct := by
  simp only [readScalar] at h
  split at h
  · cases h; exact .boolean _
  split at h
  · cases h; exact .boolean _
  split at h
  · split at h
    · split at h <;> (cases h; exact .moment _)
    · cases h; exact .moment _
  split at h
  · cases h; exact .moment _
  split at h
  · cases h; exact .float _
  obtain ⟨n, -, h⟩ := Option.map_eq_some_iff.1 h
  cases h
  exact .integer n

/-- What the readers of values give for a bound on the values and keys. -/
structure ReadsDistinct (fuel : Nat) : Prop where
  value : ∀ {depth cs v rest}, readValue fuel depth cs = some (v, rest) → v.Distinct
  items : ∀ {depth cs vs rest}, readItems fuel depth cs = some (vs, rest) → ∀ v ∈ vs, Value.Distinct v
  pairs : ∀ {depth entries cs entries' rest}, Entries.Distinct entries →
    readPairs fuel depth entries cs = some (entries', rest) → Entries.Distinct entries'

theorem readsDistinct (fuel : Nat) : ReadsDistinct fuel := by
  induction fuel with
  | zero => exact ⟨nofun, nofun, nofun⟩
  | succ fuel ih =>
      refine ⟨fun {depth cs v rest} h => ?_, fun {depth cs vs rest} h => ?_,
        fun {depth entries cs entries' rest} hentries h => ?_⟩
      · unfold readValue at h
        split at h
        · obtain ⟨⟨items, left⟩, hitems, h⟩ :=
            Option.map_eq_some_iff.1 (Option.ite_none_right_eq_some.1 h).2
          cases h
          exact .array (ih.items hitems)
        · have h := (Option.ite_none_right_eq_some.1 h).2
          split at h
          · cases h
            exact .table List.nodup_nil (List.forall_mem_nil _)
          · obtain ⟨⟨entries, left⟩, hpairs, h⟩ := Option.map_eq_some_iff.1 h
            cases h
            exact (ih.pairs .nil hpairs).finish
        · obtain ⟨⟨text, left⟩, -, h⟩ := Option.map_eq_some_iff.1 h
          cases h
          exact .string _
        · obtain ⟨⟨text, left⟩, -, h⟩ := Option.map_eq_some_iff.1 h
          cases h
          exact .string _
        · exact distinct_of_readScalar h
      · unfold readItems at h
        split at h
        · cases h
          exact List.forall_mem_nil _
        · split at h
          · cases h
          · rename_i v left hv
            split at h
            · obtain ⟨⟨items, left⟩, hitems, h⟩ := Option.map_eq_some_iff.1 h
              cases h
              exact List.forall_mem_cons.2 ⟨ih.value hv, ih.items hitems⟩
            · cases h
              exact List.forall_mem_singleton.2 (ih.value hv)
            · cases h
      · unfold readPairs at h
        split at h
        · split at h
          · cases h
          · rename_i hv
            split at h
            · cases h
            · rename_i hadd
              have hadded := hentries.addPair (ih.value hv) hadd
              split at h
              · exact ih.pairs hadded h
              · cases h
                exact hadded
              · cases h
        · cases h

theorem distinct_of_readLine {bound : Nat} {b b' : Builder} {cs rest : List Char} (hb : b.Distinct)
    (h : readLine bound b cs = some (b', rest)) : b'.Distinct := by
  unfold readLine at h
  split at h
  · split at h
    · obtain ⟨opened, hopen, h⟩ := Option.bind_eq_some_iff.1 h
      obtain ⟨left, -, h⟩ := Option.bind_eq_some_iff.1 h
      cases h
      exact hb.openElement hopen
    · cases h
  · split at h
    · obtain ⟨opened, hopen, h⟩ := Option.bind_eq_some_iff.1 h
      obtain ⟨left, -, h⟩ := Option.bind_eq_some_iff.1 h
      cases h
      exact hb.openTable hopen
    · cases h
  · split at h
    · obtain ⟨⟨v, left⟩, hv, h⟩ := Option.bind_eq_some_iff.1 h
      obtain ⟨more, hpair, h⟩ := Option.bind_eq_some_iff.1 h
      obtain ⟨left, -, h⟩ := Option.bind_eq_some_iff.1 h
      cases h
      exact hb.pair ((readsDistinct bound).value hv) hpair
    · cases h

theorem distinct_of_readLinesOf {bound fuel : Nat} {b : Builder} {cs : List Char} {entries : Entries}
    (hb : b.Distinct) (h : readLinesOf bound fuel b cs = .ok entries) : Entries.Distinct entries := by
  induction fuel generalizing b cs with
  | zero => cases h
  | succ fuel ih =>
      rw [readLinesOf] at h
      split at h
      · rcases hclose : b.close with _ | closed
        · rw [hclose] at h
          cases h
        · rw [hclose] at h
          cases h
          exact hb.close hclose
      · exact ih hb h
      · split at h
        · cases h
        · rename_i hline
          exact ih (distinct_of_readLine hb hline) h

/-- **No table of a document has a key twice.** -/
theorem distinct_of_parse {text : String} {entries : List (String × Value)}
    (h : parse text = .ok entries) : (Value.table entries).Distinct := by
  simp only [parse] at h
  split at h
  · rename_i read hread
    cases h
    exact (distinct_of_readLinesOf ⟨.nil, .nil⟩ hread).finish
  · cases h

end EchoLog.Toml
