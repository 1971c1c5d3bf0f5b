import EchoLog.Settings.Document
import Mathlib.Data.List.Basic
/-!
# What is stored of a table

`Field.readTable` goes through the fields one after another, each of which changes the record that the one
before it left.  A slot says what a field is about: what a record has there, and what it has there after a
value is stored.  Where each field leaves the slots of the others alone and the slots together make up the
record (`Slot.Cover`), the order is of no matter.  A table is then stored exactly if each slot takes what
the table has for it, and what comes of it is the record that has it (`Slot.Cover.readTable_eq_some_iff`).
-/

namespace EchoLog

/-- A field with what it is about. -/
structure Slot (σ : Type) where
  field : Field σ
  /-- What a record has in the slot. -/
  Content : Type
  content : σ → Content
  /-- What it has there after a value is stored over what it had, if the value can be. -/
  store : Toml.Value → Content → Option Content

/-- A field never changes what is in a slot. -/
def Field.Spares {σ : Type} (f : Field σ) (slot : Slot σ) : Prop :=
  ∀ v s t, f.assign v s = some t → slot.content t = slot.content s

namespace Slot

variable {σ : Type}

/-- The slot of `t` has what comes of a table's value there over what that of `s` has. -/
def Takes (slot : Slot σ) (entries : List (String × Toml.Value)) (s t : σ) : Prop :=
  match entries.lookup slot.field.key with
  | none => slot.content t = slot.content s
  | some v => slot.store v (slot.content s) = some (slot.content t)

/-- The field stores values in the slot as the slot says. -/
def IsSound (slot : Slot σ) : Prop :=
  ∀ v s, (slot.field.assign v s).map slot.content = slot.store v (slot.content s)

/-- Slots that together make up a record, each with a field that changes nothing else. -/
structure Cover (slots : List (Slot σ)) : Prop where
  sound : ∀ slot ∈ slots, slot.IsSound
  apart : slots.Pairwise fun a b => a.field.Spares b ∧ b.field.Spares a
  faithful : ∀ s t, (∀ slot ∈ slots, slot.content s = slot.content t) → s = t

/-! ## Going through the fields -/

variable {slots : List (Slot σ)} {entries : List (String × Toml.Value)}

/-- The record after the first of the fields. -/
def first (slot : Slot σ) (entries : List (String × Toml.Value)) (s : σ) : Option σ :=
  match entries.lookup slot.field.key with
  | none => some s
  | some v => slot.field.assign v s

theorem readTable_cons (slot : Slot σ) (slots : List (Slot σ)) (entries : List (String × Toml.Value))
    (s : σ) :
    Field.readTable ((slot :: slots).map field) entries s =
      (slot.first entries s).bind (Field.readTable (slots.map field) entries) :=
  rfl

theorem IsSound.takes {slot : Slot σ} (h : slot.IsSound) {s t : σ} (ht : slot.first entries s = some t) :
    slot.Takes entries s t := by
  rw [first] at ht
  rw [Takes]
  split at ht
  · rw [Option.some.inj ht]
  · rw [← h, ht, Option.map_some]

theorem content_first {slot other : Slot σ} (h : slot.field.Spares other) {s t : σ}
    (ht : slot.first entries s = some t) : other.content t = other.content s := by
  rw [first] at ht
  split at ht
  · rw [Option.some.inj ht]
  · exact h _ _ _ ht

theorem Takes.congr {slot : Slot σ} {s s' t t' : σ} (h : slot.Takes entries s t)
    (hs : slot.content s' = slot.content s) (ht : slot.content t' = slot.content t) :
    slot.Takes entries s' t' := by
  rwa [Takes, hs, ht]

/-- A slot that all the fields spare is left as it is. -/
theorem content_readTable {other : Slot σ} (hspares : ∀ slot ∈ slots, slot.field.Spares other) {s t : σ}
    (h : Field.readTable (slots.map field) entries s = some t) : other.content t = other.content s := by
  induction slots generalizing s with
  | nil => rw [Option.some.inj h]
  | cons slot slots ih =>
      obtain ⟨hslot, hslots⟩ := List.forall_mem_cons.1 hspares
      obtain ⟨u, hu, h⟩ := Option.bind_eq_some_iff.1 h
      exact (ih hslots h).trans (content_first hslot hu)

/-- **After the fields, each slot has taken what the table has for it**: its own field has seen what there
was at first, and those after it have not changed what it made of it. -/
theorem takes_of_readTable (hsound : ∀ slot ∈ slots, slot.IsSound)
    (hapart : slots.Pairwise fun a b => a.field.Spares b ∧ b.field.Spares a) {s t : σ}
    (h : Field.readTable (slots.map field) entries s = some t) : ∀ slot ∈ slots, slot.Takes entries s t := by
  induction slots generalizing s with
  | nil => exact List.forall_mem_nil _
  | cons slot slots ih =>
      obtain ⟨hslot, hslots⟩ := List.forall_mem_cons.1 hsound
      obtain ⟨hfirst, hapart⟩ := List.pairwise_cons.1 hapart
      obtain ⟨u, hu, h⟩ := Option.bind_eq_some_iff.1 h
      refine List.forall_mem_cons.2 ⟨?_, fun other hother => ?_⟩
      · exact (hslot.takes hu).congr rfl (content_readTable (fun other hother => (hfirst other hother).2) h)
      · exact (ih hslots hapart h other hother).congr (content_first (hfirst other hother).1 hu).symm rfl

/-- **The fields can all be gone through** if each slot can take what the table has for it at first. -/
theorem exists_readTable (hsound : ∀ slot ∈ slots, slot.IsSound)
    (hapart : slots.Pairwise fun a b => a.field.Spares b ∧ b.field.Spares a) {s : σ}
    (h : ∀ slot ∈ slots, ∀ v, entries.lookup slot.field.key = some v →
      (slot.store v (slot.content s)).isSome) :
    ∃ t, Field.readTable (slots.map field) entries s = some t := by
  induction slots generalizing s with
  | nil => exact ⟨s, rfl⟩
  | cons slot slots ih =>
      obtain ⟨hslot, hslots⟩ := List.forall_mem_cons.1 hsound
      obtain ⟨hfirst, hapart⟩ := List.pairwise_cons.1 hapart
      obtain ⟨u, hu⟩ : ∃ u, slot.first entries s = some u := by
        rw [first]
        split
        · exact ⟨s, rfl⟩
        · rename_i v hkey
          have hstore := h slot List.mem_cons_self v hkey
          rw [← hslot, Option.isSome_map] at hstore
          exact Option.isSome_iff_exists.1 hstore
      rw [readTable_cons, hu]
      refine ih hslots hapart fun other hother v hkey => ?_
      rw [content_first (hfirst other hother).1 hu]
      exact h other (List.mem_cons_of_mem _ hother) v hkey

/-- **What is stored of a table** is what the slots take of it. -/
theorem Cover.readTable_eq_some_iff (h : Cover slots) {s t : σ} :
    Field.readTable (slots.map field) entries s = some t ↔ ∀ slot ∈ slots, slot.Takes entries s t := by
  refine ⟨takes_of_readTable h.sound h.apart, fun htakes => ?_⟩
  obtain ⟨u, hu⟩ : ∃ u, Field.readTable (slots.map field) entries s = some u := by
    refine exists_readTable h.sound h.apart fun slot hslot v hkey => ?_
    have hstore := htakes slot hslot
    rw [Takes, hkey] at hstore
    exact Option.isSome_of_mem hstore
  -- both have taken the same
  rw [hu, h.faithful u t fun slot hslot => ?_]
  have hthere := takes_of_readTable h.sound h.apart hu slot hslot
  have hhere := htakes slot hslot
  rw [Takes] at hthere hhere
  split at hthere <;> rename_i hkey <;> rw [hkey] at hhere
  · exact hthere.trans hhere.symm
  · exact Option.some.inj (hthere.symm.trans hhere)

end Slot

namespace Field

variable {σ : Type} {fields : List (Field σ)} {entries : List (String × Toml.Value)}

/-! ## Arrays -/

/-- Only what a table has for the fields is of any matter. -/
theorem readTable_congr {other : List (String × Toml.Value)}
    (h : ∀ f ∈ fields, entries.lookup f.key = other.lookup f.key) (s : σ) :
    readTable fields entries s = readTable fields other s := by
  induction fields generalizing s with
  | nil => rfl
  | cons f fields ih =>
      obtain ⟨hf, hfields⟩ := List.forall_mem_cons.1 h
      simp only [readTable, List.foldlM_cons, hf]
      exact congrArg _ (funext (ih hfields))

theorem readTable_nil (fields : List (Field σ)) (s : σ) : readTable fields [] s = some s := by
  induction fields with
  | nil => rfl
  | cons f fields ih => exact ih

/-- **An array is stored like the table of its values** under the keys of the first fields. -/
theorem readArray_eq_readTable (hkeys : (fields.map key).Nodup) (values : List Toml.Value) (s : σ) :
    readArray fields values s = readTable fields ((fields.map key).zip values) s := by
  induction fields generalizing values s with
  | nil => rfl
  | cons f fields ih =>
      cases values with
      | nil =>
          rw [List.zip_nil_right, readTable_nil]
          rfl
      | cons v values =>
          obtain ⟨hkey, hkeys⟩ := List.nodup_cons.1 hkeys
          have hrest : ∀ s, readTable fields ((f.key, v) :: (fields.map key).zip values) s =
              readArray fields values s := by
            intro s
            rw [ih hkeys]
            refine readTable_congr (fun g hg => ?_) s
            rw [List.lookup_cons, beq_eq_false_iff_ne.2]
            exact fun heq => hkey (heq ▸ List.mem_map_of_mem hg)
          simp only [List.map_cons, List.zip_cons_cons, readTable, readArray, List.foldlM_cons,
            List.lookup_cons_self]
          exact congrArg _ (funext fun s => (hrest s).symm)

/-! ## Kinds of fields -/

section Spares

variable {key : String} {other : Slot σ}

@[simp]
theorem text_spares_iff {set : String → σ → σ} :
    (text key set).Spares other ↔ ∀ a s, other.content (set a s) = other.content s := by
  refine ⟨fun h a s => h (.string a) s _ rfl, fun h v s t ht => ?_⟩
  cases v with
  | string a => exact Option.some.inj ht ▸ h a s
  | _ => cases ht

@[simp]
theorem flag_spares_iff {set : Bool → σ → σ} :
    (flag key set).Spares other ↔ ∀ a s, other.content (set a s) = other.content s := by
  refine ⟨fun h a s => h (.boolean a) s _ rfl, fun h v s t ht => ?_⟩
  cases v with
  | boolean a => exact Option.some.inj ht ▸ h a s
  | _ => cases ht

@[simp]
theorem integer_spares_iff {low high : Int} {set : Int → σ → σ} :
    (integer key low high set).Spares other ↔
      ∀ n s, low ≤ n → n ≤ high → other.content (set n s) = other.content s := by
  refine ⟨fun h n s hlow hhigh => h (.integer n) s _ (if_pos (by simp [hlow, hhigh])), fun h v s t ht => ?_⟩
  cases v with
  | integer n =>
      obtain ⟨hn, ht⟩ := Option.ite_none_right_eq_some.1 ht
      rw [Bool.and_eq_true, decide_eq_true_eq, decide_eq_true_eq] at hn
      exact Option.some.inj ht ▸ h n s hn.1 hn.2
  | _ => cases ht

@[simp]
theorem natural_spares_iff {set : Nat → σ → σ} :
    (natural key set).Spares other ↔ ∀ n s, other.content (set n s) = other.content s := by
  refine ⟨fun h n s => h (.integer n) s (set n s) (by simp [natural]), fun h v s t ht => ?_⟩
  cases v with
  | integer n => exact Option.some.inj (Option.ite_none_right_eq_some.1 ht).2 ▸ h n.toNat s
  | _ => cases ht

theorem nested_spares {τ : Type} {fields : List (Field τ)} {get : σ → τ} {set : τ → σ → σ}
    (h : ∀ u s, other.content (set u s) = other.content s) :
    (nested key fields get set).Spares other := by
  intro v s t ht
  obtain ⟨u, -, rfl⟩ := Option.map_eq_some_iff.1 ht
  exact h u s

end Spares

end Field

end EchoLog
